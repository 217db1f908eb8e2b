import Parley.Script.Option

/-! Bodies: the lines of a node.

Each line of a body is a line of the node by itself, but for options: an option takes the jump after it,
and options that follow one another are one menu. -/
namespace Parley.Script

/-- What one line of a body is, or an option with its jump. -/
inductive Item where
  | line (read : Line (Option Int))
  | option (speaker : String) (choice : Choice (Option Int))
  deriving DecidableEq

/-- A line that is no option. -/
def readLine (s : List Char) : Except Reason (Line (Option Int)) :=
  if (Text.after? ['<', '<'] s).isSome then readStatement s
  else if (splitGuard? s).isSome then .error .misplacedGuard
  else readSpeech s

/-- The choice that an entry is, leading to a node. -/
def Entry.choice (entry : Entry) (target : List Char) : Choice (Option Int) where
  text := String.ofList entry.text
  target := String.ofList target
  index := none
  guard := entry.guard

/-- The items of a body. -/
def readItems : List SourceLine → Except Fault (List Item)
  | [] => .ok []
  | line :: rest =>
    match arrow? line.text with
    | none => do
      let read ← line.locate (readLine line.text)
      return .line read :: (← readItems rest)
    | some option => do
      let entry ← line.locate (readEntry option)
      match rest with
      | [] => .error (line.fault (.optionAtEnd entry.text))
      | follower :: rest =>
        match jumpOf? follower.text with
        | none => .error (follower.fault (.optionWithoutJump entry.text))
        | some target =>
          return .option (String.ofList entry.speaker) (entry.choice target) :: (← readItems rest)

/-- An item in front of lines: an option goes into the menu that they begin with, and its speaker, if it
has one, becomes the speaker of the menu. -/
def Item.before : Item → List (Line (Option Int)) → List (Line (Option Int))
  | .line read, lines => read :: lines
  | .option speaker choice, .offer menu :: lines =>
    .offer ⟨if speaker.isEmpty then menu.speaker else speaker, choice :: menu.choices, List.cons_ne_nil _ _⟩
      :: lines
  | .option speaker choice, lines => .offer ⟨speaker, [choice], List.cons_ne_nil _ _⟩ :: lines

/-- The lines that items make. -/
def gather (items : List Item) : List (Line (Option Int)) := items.foldr Item.before []

theorem Item.before_ne_nil (item : Item) (lines : List (Line (Option Int))) : item.before lines ≠ [] := by
  unfold Item.before
  split <;> exact List.cons_ne_nil _ _

theorem gather_ne_nil {items : List Item} (h : items ≠ []) : gather items ≠ [] := by
  cases items with
  | nil => exact absurd rfl h
  | cons item rest => exact item.before_ne_nil _

end Parley.Script
