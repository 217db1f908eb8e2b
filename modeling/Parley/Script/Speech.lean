import Parley.Script.Basic
import Parley.Script.Source

/-! Speech: a speaker, what is said, and the tags at its end. -/
namespace Parley.Script

/-! ### Tags -/

/-- The tag that a token is: `#`, a name, a colon, and a value. -/
def tag? (token : List Char) : Option Tag :=
  (Text.after? ['#'] token).bind fun rest =>
    let name := rest.takeWhile Text.isWord
    (Text.after? [':'] (rest.dropWhile Text.isWord)).bind fun value =>
      if name.isEmpty || value.isEmpty then none
      else some ⟨String.ofList name, String.ofList value⟩

/-- The last word of a text that does not end in a blank. -/
def lastWord (s : List Char) : List Char := (s.reverse.takeWhile (!Text.isBlank ·)).reverse

/-- What stands before the last word. -/
def beforeLastWord (s : List Char) : List Char := (s.reverse.dropWhile (!Text.isBlank ·)).reverse

theorem beforeLastWord_append_lastWord (s : List Char) : beforeLastWord s ++ lastWord s = s := by
  rw [beforeLastWord, lastWord, ← List.reverse_append, List.takeWhile_append_dropWhile,
    List.reverse_reverse]

/-- The last word as a tag, with the text before it. -/
def lastTag? (s : List Char) : Option (List Char × Tag) :=
  (tag? (lastWord s)).map fun tag => (Text.trimEnd (beforeLastWord s), tag)

theorem length_trimEnd_le (s : List Char) : (Text.trimEnd s).length ≤ s.length := by
  rw [Text.trimEnd, List.length_reverse]
  exact Nat.le_trans (List.dropWhile_sublist _).length_le (Nat.le_of_eq List.length_reverse)

theorem length_lt_of_lastTag? {s rest : List Char} {tag : Tag} (h : lastTag? s = some (rest, tag)) :
    rest.length < s.length := by
  obtain ⟨t, ht, heq⟩ := Option.map_eq_some_iff.mp h
  cases heq
  have hpos : 0 < (lastWord s).length := by
    cases hw : lastWord s with
    | nil => rw [hw] at ht; cases ht
    | cons c w => exact Nat.succ_pos _
  have hlen := congrArg List.length (beforeLastWord_append_lastWord s)
  rw [List.length_append] at hlen
  have := length_trimEnd_le (beforeLastWord s)
  omega

/-- A text without the tags at its end, and those tags in order. -/
def splitTags (s : List Char) : List Char × List Tag :=
  match _h : lastTag? s with
  | none => (s, [])
  | some (rest, tag) =>
    let (text, tags) := splitTags rest
    (text, tags ++ [tag])
termination_by s.length
decreasing_by exact length_lt_of_lastTag? ‹_›

/-! ### Speakers -/

/-- A letter or an underscore of ASCII: what a speaker's name begins with. -/
def isNameStart (c : Char) : Bool := c.isAlpha || c == '_'

/-- Whether a text can be a speaker's name: words with spaces between them. -/
def isSpeaker : List Char → Bool
  | [] => false
  | c :: s => isNameStart c && s.all fun d => Text.isWord d || d == ' '

/-- The speaker before the first colon, if a blank or nothing follows that colon, and the rest. -/
def splitSpeaker? (s : List Char) : Option (List Char × List Char) :=
  let name := Text.trimEnd (s.takeWhile (· != ':'))
  (Text.after? [':'] (s.dropWhile (· != ':'))).bind fun rest =>
    if isSpeaker name && rest.head?.all Text.isBlank then some (name, Text.trim rest) else none

/-- The speaker, empty if there is none, and what is said. -/
def splitSpeaker (s : List Char) : List Char × List Char := (splitSpeaker? s).getD ([], s)

/-! ### Guards -/

/-- What follows the opening of a guard: two angle brackets and the word `if`. -/
def guardOpening? (s : List Char) : Option (List Char) :=
  (Text.after? ['<', '<'] s).bind fun rest =>
    (Text.after? ['i', 'f'] (Text.trimStart rest)).bind fun rest =>
      if rest.head?.any Text.isWord then none else some rest

/-- The text before the first opening of a guard, and what follows it. -/
def splitOpening? : List Char → Option (List Char × List Char)
  | [] => none
  | c :: s =>
    match guardOpening? (c :: s) with
    | some condition => some ([], condition)
    | none => (splitOpening? s).map fun (before, condition) => (c :: before, condition)

/-- The text before the guard at its end, and the condition of that guard. -/
def splitGuard? (s : List Char) : Option (List Char × List Char) := (dropClosing? s).bind splitOpening?

/-! ### Lines of speech -/

/-- The line that a speech is. -/
def readSpeech (s : List Char) : Except Reason (Line (Option Int)) :=
  let (said, tags) := splitTags s
  let (speaker, text) := splitSpeaker said
  if text.isEmpty then .error .speechWithoutText
  else .ok (.say (String.ofList speaker) (String.ofList text) tags)

end Parley.Script
