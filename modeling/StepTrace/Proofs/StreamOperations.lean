import StepTrace.Proofs.ReportedRun

/-!
# Operations on a stream

A stream is asked for its next step or for its outcome, drained, dropped and begun again,
in any order. Since it was last begun it has delivered a prefix of the run, and all of it
(up to the limit) once it has reported its end; behind the end, and behind a drop, it
answers the same for ever; begun again it is a stream that was never touched
(`stream_operations`).

The induction is on the operations. One operation leaves a stream that is running either
running, further on, or ended (`Running.perform`); one without a worker stays as it is
(`perform_of_idle`).
-/

namespace StepTrace.StepStream

/-- What can be done with a stream. -/
inductive Operation where
  | next
  | outcome
  | drain
  | drop
  | restart
deriving DecidableEq

/-- What an operation answers. -/
inductive Reply where
  | step (step? : Option Step)
  | outcome (outcome? : Option RunEnd)
  | count (steps : Nat)
  | done

/-- Whether the reply says that the end is reached. -/
def Reply.reportsEnd : Reply → Bool
  | .step none | .count _ => true
  | _ => false

/-- The reply of a stream without a worker, given what it knows of its end. -/
def Operation.idleReply (outcome? : Option RunEnd) : Operation → Reply
  | .next => .step none
  | .outcome => .outcome outcome?
  | .drain => .count 0
  | .drop | .restart => .done

/-- The reply to an operation, and the stream behind it. -/
def perform (stream : StepStream) : Operation → Reply × StepStream
  | .next => (.step stream.next.1, stream.next.2)
  | .outcome => (.outcome stream.outcome?, stream)
  | .drain => (.count stream.drain.1, stream.drain.2)
  | .drop => (.done, stream.drop)
  | .restart => (.done, stream.restart)

/-- The steps that an operation delivers: that of `next`, and those that a drain counts. -/
def delivery (stream : StepStream) : Operation → List Step
  | .next => stream.next.1.toList
  | .drain => stream.collect.1.toList
  | _ => []

/-- The stream behind the operations. -/
def after (stream : StepStream) (ops : List Operation) : StepStream :=
  ops.foldl (fun stream op => (stream.perform op).2) stream

/-- The replies to the operations. -/
def replies (stream : StepStream) : List Operation → List Reply
  | [] => []
  | op :: ops => (stream.perform op).1 :: (stream.perform op).2.replies ops

/-- The steps that the operations deliver. -/
def deliveries (stream : StepStream) : List Operation → List Step
  | [] => []
  | op :: ops => stream.delivery op ++ (stream.perform op).2.deliveries ops

variable {stream : StepStream} {handed : List Step} {op : Operation} {ops : List Operation}

@[simp]
theorem after_cons (stream : StepStream) (op : Operation) (ops : List Operation) :
    stream.after (op :: ops) = (stream.perform op).2.after ops := rfl

@[simp]
theorem after_append (stream : StepStream) (ops later : List Operation) :
    stream.after (ops ++ later) = (stream.after ops).after later :=
  List.foldl_append

theorem deliveries_append (stream : StepStream) (ops later : List Operation) :
    stream.deliveries (ops ++ later) =
      stream.deliveries ops ++ (stream.after ops).deliveries later := by
  induction ops generalizing stream with
  | nil => rfl
  | cons op ops ih => simp [deliveries, ih]

/-! ## Beginning again -/

theorem restart_perform (stream : StepStream) (op : Operation) :
    (stream.perform op).2.restart = stream.restart := by
  cases op with
  | next => exact stream.restart_next
  | outcome => rfl
  | drain => exact stream.restart_collect
  | drop => rfl
  | restart => rfl

theorem restart_after (stream : StepStream) (ops : List Operation) :
    (stream.after ops).restart = stream.restart := by
  induction ops generalizing stream with
  | nil => rfl
  | cons op ops ih => exact (ih _).trans (stream.restart_perform op)

/-! ## Streams without a worker -/

/-- A stream without a worker replies as it must and stays as it is; a drop makes it forget
an end that it knows. -/
theorem perform_of_idle (h : stream.worker = none) (hrestart : op ≠ .restart)
    (hdrop : op = .drop → stream.outcome? = none) :
    stream.perform op = (op.idleReply stream.outcome?, stream) ∧ stream.delivery op = [] := by
  cases op with
  | next => simp [perform, delivery, next, h, Operation.idleReply]
  | outcome => exact ⟨rfl, rfl⟩
  | drain => simp [perform, delivery, drain, collect, h, Operation.idleReply]
  | drop =>
      refine ⟨?_, rfl⟩
      rw [perform, drop, ← h, ← hdrop rfl]
      rfl
  | restart => exact absurd rfl hrestart

theorem after_of_idle (h : stream.worker = none) (hrestart : .restart ∉ ops)
    (hdrop : .drop ∈ ops → stream.outcome? = none) :
    stream.after ops = stream ∧ stream.deliveries ops = [] ∧
      stream.replies ops = ops.map (·.idleReply stream.outcome?) := by
  induction ops with
  | nil => exact ⟨rfl, rfl, rfl⟩
  | cons op ops ih =>
      simp only [List.mem_cons, not_or] at hrestart hdrop
      obtain ⟨hafter, hdeliveries, hreplies⟩ := ih hrestart.2 fun h => hdrop (.inr h)
      obtain ⟨hperform, hdelivery⟩ :=
        perform_of_idle h (Ne.symm hrestart.1) fun h => hdrop (.inl h.symm)
      refine ⟨?_, ?_, ?_⟩
      · rw [after_cons, hperform, hafter]
      · rw [deliveries, hperform, hdelivery, hdeliveries, List.nil_append]
      · rw [replies, hperform, hreplies, List.map_cons]

/-! ## One operation -/

/-- A stream that is running and neither dropped nor begun again is still running behind
the operation, or has reported its end. -/
theorem Running.perform (h : stream.Running handed) (hdrop : op ≠ .drop)
    (hrestart : op ≠ .restart) :
    (stream.perform op).1.reportsEnd = false ∧
      (stream.perform op).2.Running (handed ++ stream.delivery op) ∨
    (stream.perform op).1.reportsEnd = true ∧
      ∃ reason, (stream.perform op).2.Ended (handed ++ stream.delivery op) reason := by
  cases op with
  | next =>
      rcases h.next with ⟨step, hstep, hrunning⟩ | ⟨hnone, reason, hended⟩
      · refine Or.inl ⟨?_, ?_⟩
        · rw [StepStream.perform, hstep]
          rfl
        · rw [delivery, hstep]
          exact hrunning
      · refine Or.inr ⟨?_, reason, ?_⟩
        · rw [StepStream.perform, hnone]
          rfl
        · rw [delivery, hnone]
          exact (List.append_nil handed).symm ▸ hended
  | outcome => exact Or.inl ⟨rfl, (List.append_nil handed).symm ▸ h⟩
  | drain => exact Or.inr ⟨rfl, h.collect⟩
  | drop => exact absurd rfl hdrop
  | restart => exact absurd rfl hrestart

/-! ## All operations -/

/-- A running stream that is neither dropped nor begun again is running behind the
operations if no reply has reported the end, and has ended if one has. -/
theorem Running.after (h : stream.Running handed) (hdrop : .drop ∉ ops)
    (hrestart : .restart ∉ ops) :
    (∀ reply ∈ stream.replies ops, reply.reportsEnd = false) ∧
      (stream.after ops).Running (handed ++ stream.deliveries ops) ∨
    (∃ reply ∈ stream.replies ops, reply.reportsEnd = true) ∧
      ∃ reason, (stream.after ops).Ended (handed ++ stream.deliveries ops) reason := by
  induction ops generalizing stream handed with
  | nil => exact Or.inl ⟨by simp [replies], (List.append_nil handed).symm ▸ h⟩
  | cons op ops ih =>
      simp only [List.mem_cons, not_or] at hdrop hrestart
      rw [replies, after_cons, deliveries, ← List.append_assoc]
      rcases h.perform (Ne.symm hdrop.1) (Ne.symm hrestart.1) with
        ⟨hreply, hrunning⟩ | ⟨hreply, reason, hended⟩
      · rcases ih hrunning hdrop.2 hrestart.2 with
          ⟨hreplies, hlater⟩ | ⟨⟨reply, hmem, hend⟩, hlater⟩
        · exact Or.inl ⟨by simpa [hreply] using hreplies, hlater⟩
        · exact Or.inr ⟨⟨reply, List.mem_cons_of_mem _ hmem, hend⟩, hlater⟩
      · -- the end is reported here, so there is no worker for the operations that are left
        obtain ⟨hafter, hdeliveries, _⟩ :=
          after_of_idle hended.worker hrestart.2 fun h => absurd h hdrop.2
        rw [hafter, hdeliveries, List.append_nil]
        exact Or.inr ⟨⟨_, List.mem_cons_self, hreply⟩, reason, hended⟩

/-- A stream that was dropped knows no end and has no worker, and it delivers nothing more
than what it had delivered before. -/
theorem dropped (stream : StepStream) (hdrop : .drop ∈ ops) (hrestart : .restart ∉ ops) :
    (stream.after ops).worker = none ∧ (stream.after ops).outcome? = none ∧
      ∃ before, .drop ∉ before ∧ .restart ∉ before ∧
        stream.deliveries ops = stream.deliveries before := by
  obtain ⟨before, behind, rfl, hbefore⟩ := List.eq_append_cons_of_mem hdrop
  simp only [List.mem_append, List.mem_cons, not_or] at hrestart
  have hworker : (stream.after before).drop.worker = none := rfl
  obtain ⟨hafter, hdeliveries, _⟩ := after_of_idle hworker hrestart.2.2 fun _ => rfl
  refine ⟨?_, ?_, before, hbefore, hrestart.1, ?_⟩
  · rw [after_append, after_cons]
    exact congrArg StepStream.worker hafter
  · rw [after_append, after_cons]
    exact congrArg StepStream.outcome? hafter
  · rw [deliveries_append, deliveries]
    exact (congrArg _ hdeliveries).trans (List.append_nil _)

/-! ## What a stream delivers -/

theorem Running.within (h : stream.Running handed) :
    handed <+: stream.run.steps ∧ ∀ l, stream.limit = some l → handed.length ≤ l := by
  obtain ⟨worker, _, hserving⟩ := h.worker
  exact ⟨⟨_, hserving.leads.1.symm⟩, hserving.room⟩

theorem Ended.within {reason : RunEnd} (h : stream.Ended handed reason) :
    handed <+: stream.run.steps ∧ ∀ l, stream.limit = some l → handed.length ≤ l := by
  have hends := h.endsWithin
  generalize stream.limit = limit at hends
  cases hends with
  | limit l hmore =>
      refine ⟨?_, ?_⟩
      · exact List.take_prefix _ _
      · rintro _ ⟨⟩
        exact List.length_take_le _ _
  | process limit hfits => exact ⟨List.prefix_rfl, hfits⟩

variable {start : StepStream}

/-- What a stream delivers is the beginning of its run and within the limit. -/
theorem Running.deliveries (h : start.Running []) (hrestart : .restart ∉ ops) :
    start.deliveries ops <+: start.run.steps ∧
      ∀ l, start.limit = some l → (start.deliveries ops).length ≤ l := by
  -- a drop delivers nothing, so there is nothing to show for the operations behind it
  obtain ⟨before, hdrop, hrestart, heq⟩ : ∃ before, .drop ∉ before ∧ .restart ∉ before ∧
      start.deliveries ops = start.deliveries before := by
    by_cases hdrop : .drop ∈ ops
    · exact (start.dropped hdrop hrestart).2.2
    · exact ⟨ops, hdrop, hrestart, rfl⟩
  rw [heq, ← run_eq_of_restart (start.restart_after before),
    ← limit_eq_of_restart (start.restart_after before)]
  rcases h.after hdrop hrestart with ⟨_, hrunning⟩ | ⟨_, reason, hended⟩
  · exact hrunning.within
  · exact hended.within

/-- A stream that knows its end has not been dropped, and has ended. -/
theorem Running.ended_of_outcome (h : start.Running []) (hrestart : .restart ∉ ops)
    {reason : RunEnd} (hreason : (start.after ops).outcome? = some reason) :
    .drop ∉ ops ∧ (start.after ops).Ended (start.deliveries ops) reason := by
  have hdrop : .drop ∉ ops := by
    intro hdrop
    rw [(start.dropped hdrop hrestart).2.1] at hreason
    cases hreason
  refine ⟨hdrop, ?_⟩
  rcases h.after hdrop hrestart with ⟨_, hrunning⟩ | ⟨_, reason', hended⟩
  · rw [hrunning.outcome] at hreason
    cases hreason
  · rw [hended.outcome] at hreason
    cases hreason
    exact hended

/-- **A stream is fused, lossless and restartable**, whatever is done with it: `earlier`
before it was last begun again, `since` behind that and `later`. -/
theorem stream_operations (program : Capture.Instrumented) (bound : Nat) (limit : Option Nat)
    (earlier since later : List Operation) (hsince : .restart ∉ since) :
    let start := startWithin bound program limit
    let opened := (start.after earlier).restart
    let now := opened.after since
    let full := program.runWithin bound none
    (∀ ops, opened.replies ops = start.replies ops) ∧
    opened.deliveries since <+: full.trace.toList ∧
    (∀ l, limit = some l → (opened.deliveries since).length ≤ l) ∧
    (∀ reason, now.outcome? = some reason →
      (∃ l, limit = some l ∧ l < full.trace.size ∧
        opened.deliveries since = full.trace.toList.take l ∧ reason = .stepLimit l) ∨
      opened.deliveries since = full.trace.toList ∧ reason = .ofOutcome full.outcome) ∧
    (.drop ∉ since →
      (now.outcome? = none ↔ ∀ reply ∈ opened.replies since, reply.reportsEnd = false)) ∧
    (∀ reason, now.outcome? = some reason → .drop ∉ later → .restart ∉ later →
      now.replies later = later.map (·.idleReply (some reason))) ∧
    (.drop ∈ since → .restart ∉ later →
      now.replies later = later.map (·.idleReply none)) := by
  intro start opened now full
  have hopened : opened = start := start.restart_after earlier
  have hstart : start.Running [] := running_startWithin bound program limit
  have hfull : full.trace.toList = start.run.steps := by
    rw [show full.trace = _ from program.trace_runWithin bound]
    rfl
  clear_value opened
  subst hopened
  obtain ⟨hbegins, hlimit⟩ := hstart.deliveries hsince
  refine ⟨fun _ => rfl, hfull ▸ hbegins, hlimit, fun reason hreason => ?_, fun hdrop => ?_,
    fun reason hreason hdrop hlater => ?_, fun hdrop hlater => ?_⟩
  · have hends := (hstart.ended_of_outcome hsince hreason).2.endsWithin.eq
    rw [run_eq_of_restart (start.restart_after since),
      limit_eq_of_restart (start.restart_after since), ← hfull] at hends
    rw [show full.outcome = _ from program.outcome_runWithin bound]
    simp only [Array.length_toList] at hends
    exact hends
  · rcases hstart.after hdrop hsince with ⟨hreplies, hrunning⟩ | ⟨hreply, reason, hended⟩
    · exact iff_of_true hrunning.outcome hreplies
    · refine iff_of_false ?_ fun hreplies => ?_
      · rw [hended.outcome]
        simp
      · obtain ⟨reply, hmem, hend⟩ := hreply
        simp [hreplies reply hmem] at hend
  · obtain ⟨_, hended⟩ := hstart.ended_of_outcome hsince hreason
    have hreplies := (after_of_idle hended.worker hlater fun h => absurd h hdrop).2.2
    rwa [hended.outcome] at hreplies
  · obtain ⟨hworker, houtcome, _⟩ := dropped start hdrop hsince
    have hreplies := (after_of_idle hworker hlater fun _ => houtcome).2.2
    rwa [houtcome] at hreplies

open Capture.Instrumented in
theorem stream_operations_twoSteps :
    let opened := ((startWithin 0 twoSteps (some 1)).after [.next]).restart
    (∃ reason, (opened.after [.drain]).outcome? = some reason ∧
      (opened.after [.drain]).replies [.next, .drain] = [.step none, .count 0]) ∧
    (opened.after [.next, .drop]).replies [.next, .outcome] = [.step none, .outcome none] := by
  have hdrain := stream_operations twoSteps 0 (some 1) [.next] [.drain] [.next, .drain] (by decide)
  have hdrop :=
    stream_operations twoSteps 0 (some 1) [.next] [.next, .drop] [.next, .outcome] (by decide)
  obtain ⟨_, _, _, _, hreported, hended, _⟩ := hdrain
  obtain ⟨_, _, _, _, _, _, hdropped⟩ := hdrop
  refine ⟨?_, hdropped (by decide) (by decide)⟩
  have hsome : (((startWithin 0 twoSteps (some 1)).after [.next]).restart.after
      [.drain]).outcome? ≠ none := by
    rw [Ne, hreported (by decide)]
    simp [replies, perform, Reply.reportsEnd]
  obtain ⟨reason, hreason⟩ := Option.ne_none_iff_exists'.mp hsome
  exact ⟨reason, hreason, hended reason hreason (by decide) (by decide)⟩

end StepTrace.StepStream
