import Parley.Script.Body

/-! Reading a script.

A script is a row of nodes. A node is headers, one of them its title, then `---`, its body, and `===`.
The lines that matter are gone through once, in order, and the first one that cannot stand where it
stands is the fault. A body is read when it is closed. -/
namespace Parley.Script

/-- Where a reading of a script is. -/
inductive Stage where
  /-- Among headers, with the title and its line number if it has been given. -/
  | heading (title : Option (String × Nat)) (headers : Table String)
  /-- In the body of a node. -/
  | body (title : String) (titleLine : Nat) (headers : Table String) (lines : List SourceLine)

/-- Before any header. -/
def Stage.start : Stage := .heading none .empty

/-- The key and the value of a header. -/
def header? (s : List Char) : Option (List Char × List Char) :=
  let key := s.takeWhile Text.isWord
  if key.isEmpty then none
  else
    (Text.after? [':'] (Text.trimStart (s.dropWhile Text.isWord))).map fun value => (key, Text.trim value)

/-- The stage after a header. -/
def readHeader (title : Option (String × Nat)) (headers : Table String) (line : SourceLine) :
    Except Fault Stage :=
  match header? line.text with
  | none => .error (line.fault (.notHeader line.text))
  | some (key, value) =>
    let key := String.ofList key
    if headers.contains key || (title.isSome && key = "title") then .error (line.fault (.repeatedHeader key))
    else if key = "title" then
      if isTitle value then .ok (.heading (some (String.ofList value, line.number)) headers)
      else .error (line.fault (.invalidTitle value))
    else .ok (.heading title (headers.put key (String.ofList value)))

/-- The node that a closed body makes. -/
def closeBody (title : String) (titleLine : Nat) (headers : Table String) (lines : List SourceLine)
    (closing : SourceLine) : Except Fault (Node (Option Int)) := do
  let items ← readItems lines
  if h : items = [] then .error (closing.fault (.emptyNode title))
  else .ok ⟨title, gather items, headers, titleLine, gather_ne_nil h⟩

/-- What one line does: it may complete a node. -/
def Stage.step (stage : Stage) (line : SourceLine) : Except Fault (Option (Node (Option Int)) × Stage) :=
  match stage with
  | .heading title headers =>
    if line.text = "---".toList then
      match title with
      | none => .error (line.fault .untitledBody)
      | some (title, titleLine) => .ok (none, .body title titleLine headers [])
    else (readHeader title headers line).map fun stage => (none, stage)
  | .body title titleLine headers lines =>
    if line.text = "===".toList then
      (closeBody title titleLine headers lines line).map fun node => (some node, .start)
    else if line.text = "---".toList then .error (line.fault (.unclosedNode title))
    else .ok (none, .body title titleLine headers (lines ++ [line]))

/-- The nodes that lines complete, and the stage after them. -/
def scan (stage : Stage) : List SourceLine → Except Fault (List (Node (Option Int)) × Stage)
  | [] => .ok ([], stage)
  | line :: rest => do
    let (node, stage) ← stage.step line
    let (nodes, stage) ← scan stage rest
    return (node.toList ++ nodes, stage)

/-- What is wrong with a script that ends at a stage. -/
def Stage.unfinished? : Stage → Option Reason
  | .body title _ _ _ => some (.unclosedNode title)
  | .heading none headers => if headers.size = 0 then none else some .headersWithoutBody
  | .heading (some _) _ => some .headersWithoutBody

/-- The nodes of a script, in order, with no index for any reference. A script that ends too early is at
fault in its last line. -/
def read (text : String) : Except Fault (List (Node (Option Int))) := do
  let lines := Text.lines text.toList
  let (nodes, stage) ← scan .start (sourceLines 1 lines)
  match stage.unfinished? with
  | some reason => .error ⟨lines.length, 1, reason⟩
  | none => if nodes.isEmpty then .error ⟨max lines.length 1, 1, .noNodes⟩ else .ok nodes

end Parley.Script
