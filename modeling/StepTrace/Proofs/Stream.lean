import StepTrace.Proofs.Handover
import StepTrace.Trace.Stream

/-!
# The turns of a stream

A stream that is running stands at a point of its run: it has handed out the steps up to
there, and the process of its worker has the rest in store (`StepStream.Running`). One turn
takes it to the next step or to the end that the run has for this limit
(`Process.EndsWithin`), and all turns together take it to that end (`Running.next`,
`Running.collect`).
-/

namespace StepTrace

namespace Process

/-- How the process ends for a consumer that takes every step. -/
def ending : Process Unit → Outcome
  | done _ _ => .completed
  | stopped stop _ => .stopped stop
  | offering _ answer => (answer true).ending

theorem outcome_run (p : Process Unit) (trace : Trace) :
    (p.run none trace).outcome = p.ending := by
  induction p generalizing trace with
  | done a s => rfl
  | stopped stop s => rfl
  | offering step answer ih => exact ih true _

/-- Taking these steps leads from the one process to the other. -/
def LeadsTo (p : Process Unit) (taken : List Step) (q : Process Unit) : Prop :=
  p.steps = taken ++ q.steps ∧ p.ending = q.ending

theorem LeadsTo.take {p : Process Unit} {taken : List Step} {step : Step}
    {answer : Bool → Process Unit} (h : p.LeadsTo taken (.offering step answer)) :
    p.LeadsTo (taken ++ [step]) (answer true) := by
  refine ⟨?_, h.2⟩
  rw [h.1, steps, List.append_assoc, List.singleton_append]

end Process

/-- The end of a run of which no step was refused. -/
def RunEnd.ofOutcome : Outcome → RunEnd
  | .completed => .completed
  | .stopped stop => .ofStop stop

/-- How a stream of the steps of a process ends, and which steps it has handed out then: it
ends at the limit if more steps are offered, and with the process if not. -/
inductive Process.EndsWithin (p : Process Unit) : Option Nat → List Step → RunEnd → Prop
  | limit (limit : Nat) (h : limit < p.steps.length) :
    EndsWithin p (some limit) (p.steps.take limit) (.stepLimit limit)
  | process (limit : Option Nat) (h : ∀ l, limit = some l → p.steps.length ≤ l) :
    EndsWithin p limit p.steps (.ofOutcome p.ending)

theorem Process.EndsWithin.eq {p : Process Unit} {limit : Option Nat} {handed : List Step}
    {reason : RunEnd} (h : p.EndsWithin limit handed reason) :
    (∃ l, limit = some l ∧ l < p.steps.length ∧ handed = p.steps.take l ∧
      reason = .stepLimit l) ∨
    handed = p.steps ∧ reason = .ofOutcome p.ending := by
  cases h with
  | limit l hmore => exact Or.inl ⟨l, rfl, hmore, rfl, rfl⟩
  | process limit hfits => exact Or.inr ⟨rfl, rfl⟩

namespace StepStream

/-- The process of the whole run. -/
def run (stream : StepStream) : Process Unit :=
  stream.program.process stream.bound

/-- The process leads on to the end of the stream's run; the steps before it were handed
out. -/
structure Serving (stream : StepStream) (handed : List Step) (p : Process Unit) : Prop where
  leads : stream.run.LeadsTo handed p
  delivered : stream.delivered = handed.length
  room : ∀ l, stream.limit = some l → handed.length ≤ l

/-- The stream is running and has handed out these steps. -/
structure Running (stream : StepStream) (handed : List Step) : Prop where
  worker : ∃ worker, stream.worker = some worker ∧
    stream.Serving handed (worker.turn stream.program stream.bound)
  outcome : stream.outcome? = none

/-- The stream has ended, for this reason and with these steps handed out. -/
structure Ended (stream : StepStream) (handed : List Step) (reason : RunEnd) : Prop where
  worker : stream.worker = none
  outcome : stream.outcome? = some reason
  endsWithin : stream.run.EndsWithin stream.limit handed reason

/-! ## What a stream is begun again as -/

theorem restart_receive (stream : StepStream) (p : Process Unit) :
    (stream.receive p).2.restart = stream.restart := by
  cases p with
  | done a s => rfl
  | stopped stop s => rfl
  | offering step answer =>
      rw [receive]
      split
      · rfl
      · rfl

theorem restart_receiveAll (stream : StepStream) (trace : Trace) (p : Process Unit) :
    (stream.receiveAll trace p).2.restart = stream.restart := by
  induction p generalizing stream trace with
  | done a s => rfl
  | stopped stop s => rfl
  | offering step answer ih =>
      rw [receiveAll]
      split
      · rfl
      · exact ih true _ _

theorem restart_next (stream : StepStream) : stream.next.2.restart = stream.restart := by
  unfold next
  split
  · rfl
  · exact restart_receive _ _

theorem restart_collect (stream : StepStream) : stream.collect.2.restart = stream.restart := by
  unfold collect
  split
  · rfl
  · exact restart_receiveAll _ _ _

theorem run_eq_of_restart {stream start : StepStream} (h : stream.restart = start.restart) :
    stream.run = start.run := by
  change stream.restart.run = start.restart.run
  rw [h]

theorem limit_eq_of_restart {stream start : StepStream} (h : stream.restart = start.restart) :
    stream.limit = start.limit := by
  change stream.restart.limit = start.restart.limit
  rw [h]

/-! ## Turns -/

theorem running_startWithin (bound : Nat) (program : Capture.Instrumented)
    (limit : Option Nat) : (startWithin bound program limit).Running [] where
  worker := ⟨.fresh, rfl, ⟨rfl, rfl⟩, rfl, fun _ _ => Nat.zero_le _⟩
  outcome := rfl

namespace Serving

variable {stream : StepStream} {handed : List Step}

/-- A process that offers nothing more ends the stream as it ends itself. -/
theorem ended {p : Process Unit} (h : stream.Serving handed p) (hsteps : p.steps = []) :
    (stream.finish (.ofOutcome p.ending)).Ended handed (.ofOutcome p.ending) := by
  have hhanded : stream.run.steps = handed := by rw [h.leads.1, hsteps, List.append_nil]
  refine ⟨rfl, rfl, ?_⟩
  rw [← h.leads.2, ← hhanded]
  refine .process _ fun l hl => ?_
  change stream.run.steps.length ≤ l
  rw [hhanded]
  exact h.room l hl

/-- A step beyond the limit ends the stream there. -/
theorem full {step : Step} {answer : Bool → Process Unit}
    (h : stream.Serving handed (.offering step answer)) (hfull : stream.isFull = true) :
    (stream.finish (.stepLimit stream.delivered)).Ended handed (.stepLimit stream.delivered) := by
  obtain ⟨l, hl, hle⟩ : ∃ l, stream.limit = some l ∧ l ≤ stream.delivered := by
    simpa [isFull, Option.any_eq_true] using hfull
  have hroom := h.room l hl
  obtain rfl : l = stream.delivered := Nat.le_antisymm hle (h.delivered ▸ hroom)
  refine ⟨rfl, rfl, ?_⟩
  have hends := Process.EndsWithin.limit (p := stream.run) stream.delivered (by
    rw [h.leads.1, h.delivered]
    simp [Process.steps])
  rw [h.leads.1, h.delivered, List.take_left, ← h.delivered] at hends
  exact hl ▸ hends

/-- A step within the limit is handed out, and the stream goes on behind it. -/
theorem handedOut {step : Step} {answer : Bool → Process Unit}
    (h : stream.Serving handed (.offering step answer)) (hfull : stream.isFull = false) :
    (stream.handedOut answer).Serving (handed ++ [step]) (answer true) where
  leads := h.leads.take
  delivered := by simp [StepStream.handedOut, h.delivered]
  room l hl := by
    have hl' : stream.limit = some l := hl
    have hlt : stream.delivered < l := by simpa [isFull, hl'] using hfull
    rw [List.length_append, ← h.delivered]
    exact hlt

/-- What a turn that leads to this process makes of the stream. -/
theorem receive {p : Process Unit} (h : stream.Serving handed p)
    (houtcome : stream.outcome? = none) :
    (∃ step, (stream.receive p).1 = some step ∧
      (stream.receive p).2.Running (handed ++ [step])) ∨
    (stream.receive p).1 = none ∧ ∃ reason, (stream.receive p).2.Ended handed reason := by
  cases p with
  | done a s => exact Or.inr ⟨rfl, _, h.ended rfl⟩
  | stopped stop s => exact Or.inr ⟨rfl, _, h.ended rfl⟩
  | offering step answer =>
      unfold StepStream.receive
      cases hfull : stream.isFull with
      | true => exact Or.inr ⟨rfl, _, h.full hfull⟩
      | false => exact Or.inl ⟨step, rfl, ⟨.parked answer, rfl, h.handedOut hfull⟩, houtcome⟩

/-- All turns from this process on take the stream to its end. -/
theorem receiveAll {p : Process Unit} (h : stream.Serving handed p) (trace : Trace) :
    ∃ more reason, (stream.receiveAll trace p).1 = trace ++ more.toArray ∧
      (stream.receiveAll trace p).2.Ended (handed ++ more) reason := by
  induction p generalizing stream handed trace with
  | done a s => exact ⟨[], _, Array.append_empty.symm, (List.append_nil handed).symm ▸ h.ended rfl⟩
  | stopped stop s =>
      exact ⟨[], _, Array.append_empty.symm, (List.append_nil handed).symm ▸ h.ended rfl⟩
  | offering step answer ih =>
      unfold StepStream.receiveAll
      cases hfull : stream.isFull with
      | true => exact ⟨[], _, by simp, by simpa using h.full hfull⟩
      | false =>
          obtain ⟨more, reason, htrace, hended⟩ := ih true (h.handedOut hfull) (trace.push step)
          refine ⟨step :: more, reason, ?_, ?_⟩
          · simp [htrace]
          · simpa using hended

end Serving

namespace Running

variable {stream : StepStream} {handed : List Step}

/-- The next step follows those that were handed out; if there is none the stream has
ended. -/
theorem next (h : stream.Running handed) :
    (∃ step, stream.next.1 = some step ∧ stream.next.2.Running (handed ++ [step])) ∨
    stream.next.1 = none ∧ ∃ reason, stream.next.2.Ended handed reason := by
  obtain ⟨worker, hworker, hserving⟩ := h.worker
  unfold StepStream.next
  rw [hworker]
  exact hserving.receive h.outcome

/-- The steps that are left follow those that were handed out, and the stream has ended
behind them. -/
theorem collect (h : stream.Running handed) :
    ∃ reason, stream.collect.2.Ended (handed ++ stream.collect.1.toList) reason := by
  obtain ⟨worker, hworker, hserving⟩ := h.worker
  obtain ⟨more, reason, htrace, hended⟩ := hserving.receiveAll #[]
  refine ⟨reason, ?_⟩
  unfold StepStream.collect
  rw [hworker]
  dsimp only
  rw [htrace]
  simpa using hended

end Running

/-! ## Many turns at once -/

theorem receiveAll_eq (stream : StepStream) (trace : Trace) (p : Process Unit) :
    stream.receiveAll trace p =
      (trace ++ (stream.receiveAll #[] p).1, (stream.receiveAll #[] p).2) := by
  induction p generalizing stream trace with
  | done a s => simp [receiveAll]
  | stopped stop s => simp [receiveAll]
  | offering step answer ih =>
      rw [receiveAll, receiveAll]
      split
      · simp
      · rw [ih true _ (trace.push step), ih true _ (#[].push step)]
        simp

/-- Collecting is taking turns until there is no further step. -/
theorem collect_eq_next (stream : StepStream) :
    stream.collect =
      match stream.next with
      | (none, stream') => (#[], stream')
      | (some step, stream') => (#[step] ++ stream'.collect.1, stream'.collect.2) := by
  unfold collect next
  cases stream.worker with
  | none => rfl
  | some worker =>
      dsimp only
      cases worker.turn stream.program stream.bound with
      | done a s => rfl
      | stopped stop s => rfl
      | offering step answer =>
          rw [receiveAll, receive]
          split
          · rfl
          · exact receiveAll_eq _ _ _

end StepStream

end StepTrace
