/-!
# Colours and styles

A style says which colours to use and whether to write bold; what it leaves open stays as
it was. The palette names the styles by what they show.
-/

namespace StepTrace.Viewer

/-- A colour. -/
inductive Color where
  | black
  | rgb (red green blue : Nat)
deriving DecidableEq, Repr

/-- Colours and weight of text, as far as they are given. -/
structure Style where
  fg : Option Color
  bg : Option Color
  bold : Bool
deriving DecidableEq, Repr

namespace Style

/-- The style that leaves everything open. -/
def plain : Style :=
  ⟨none, none, false⟩

/-- A style that gives the colour of the text. -/
def ofColor (color : Color) : Style :=
  ⟨some color, none, false⟩

/-- The style with the background given. -/
def on (style : Style) (color : Color) : Style :=
  { style with bg := some color }

/-- The style in bold. -/
def strong (style : Style) : Style :=
  { style with bold := true }

/-- The style with what `upper` gives in place of what it gave itself. -/
def patch (style upper : Style) : Style :=
  ⟨upper.fg.or style.fg, upper.bg.or style.bg, style.bold || upper.bold⟩

end Style

namespace Palette

/-- Text without a meaning of its own. -/
def text : Color := .rgb 205 214 244

/-- Words of the language, brackets and the state of a run that went well. -/
def primary : Color := .rgb 137 180 250

/-- What is current. -/
def secondary : Color := .rgb 250 179 135

/-- What accompanies other text. -/
def comment : Color := .rgb 108 112 134

/-- Beginnings. -/
def success : Color := .rgb 166 227 161

/-- Ends and failures. -/
def error : Color := .rgb 243 139 168

/-- Quoted text. -/
def string : Color := .rgb 166 227 161

/-- Numbers. -/
def number : Color := .rgb 250 179 135

/-- The border of the pane that has the focus. -/
def focus : Color := .rgb 249 226 175

/-- The background of the current line and of the status bar. -/
def ground : Color := .rgb 50 50 70

/-- Functions. -/
def function : Color := .rgb 249 226 175

/-- What has changed since the step before. -/
def changed : Color := .rgb 245 194 231

/-- Values that are words. -/
def literal : Color := .rgb 148 226 213

/-- The style of a border. -/
def border (focused : Bool) : Style :=
  if focused then (Style.ofColor focus).strong else .ofColor comment

end Palette

end StepTrace.Viewer
