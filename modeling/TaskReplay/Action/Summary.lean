import TaskReplay.Action.Basic

/-!
One line about a step, for people.

What this file fixes:
* `Action.display` names the kind of step and what it works on; inner steps are counted, not shown;
* a typed text is counted too, so that no display reveals it.
-/

namespace TaskReplay

/-! ## 1. Parts -/

/-- Where a click lands. -/
def ClickTarget.display : ClickTarget → String
  | .coordinates x y => toString x.toInt ++ "," ++ toString y.toInt
  | .image template => "image:" ++ template
  | .stored name => "var:" ++ name

/-- The word for a click. -/
def ClickKind.word : ClickKind → String
  | .single => "click"
  | .double => "double_click"
  | .right => "right_click"

/-- The word for a predicate. -/
def Predicate.word : Predicate → String
  | .imageVisible => "ImageVisible"
  | .imageNotVisible => "ImageNotVisible"
  | .variableEquals => "VariableEquals"

/-- The word for a kind of loop. -/
def LoopKind.word : LoopKind → String
  | .count => "Count"
  | .whileImageVisible => "WhileImageVisible"
  | .untilImageVisible => "UntilImageVisible"
  | .infinite => "Infinite"

/-! ## 2. Steps -/

/-- A word with something in parentheses. -/
def called (word inside : String) : String := word ++ "(" ++ inside ++ ")"

/-- One line about a step without inner steps. -/
def Deed.display : Deed → String
  | .click kind place => called kind.word place.target.display
  | .typeText text _ => called "type" (toString text.length ++ " chars")
  | .pressKey key => called "press_key" key
  | .hotkey keys => called "hotkey" (String.intercalate "+" keys)
  | .wait duration _ => called "wait" (toString (duration.getD 0).toNat ++ "ms")
  | .findImage template _ _ _ => called "find_image" template
  | .waitForImage template _ _ disappear _ =>
    called "wait_for_image" (if disappear then template ++ ", gone" else template)

/-- One line about a step. -/
def Action.display : Action → String
  | .simple _ d => d.display
  | .condition _ t a b =>
    called "condition" (t.predicate.word ++ ", " ++ toString a.length ++ "/" ++ toString b.length ++
      " steps")
  | .loop _ r b => called "loop" (r.kind.word ++ ", " ++ toString b.length ++ " steps")

end TaskReplay
