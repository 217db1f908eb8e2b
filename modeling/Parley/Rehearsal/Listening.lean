import Parley.Bus.Delivery
import Parley.Json.Basic
import Parley.Log
import Parley.Table
import Parley.Text.Quoted

/-! A bus in rehearsal: listeners that follow a list of deeds, everything they do being written down. -/
namespace Parley.Rehearsal

/-- A listener: one of the cast, or a nameless one that was made for one subscription. -/
structure Listener where
  name : String
  copy : Option Nat
  deriving DecidableEq, Repr

/-- What is asked of the bus. -/
inductive Demand where
  /-- With `fresh`, a listener is made that does nothing and has no owner. -/
  | subscribe (topic : Topic) (name : String) (priority : Int) (once weak fresh : Bool)
  | unsubscribe (topic : Topic) (name : String)
  | publish (topic : Topic) (data : Json)
  | clear (topic : Option Topic)
  | heard (topic : Topic)
  | drop (name : String)

/-- The word for a demand. -/
def Demand.verb : Demand → String
  | subscribe .. => "subscribe"
  | unsubscribe .. => "unsubscribe"
  | publish .. => "publish"
  | clear .. => "clear"
  | heard .. => "has"
  | drop .. => "drop"

/-- What a demand gives. -/
inductive Answer where
  | done
  | truth (value : Bool)
  | published (topic : Topic) (data : Json) (consumed : Bool)

/-- The answer to a demand, with what the bus says to it. -/
def Demand.answer (said : Bool) : Demand → Answer
  | publish topic data => .published topic data said
  | heard _ => .truth said
  | drop _ => .truth true
  | _ => .done

/-- One thing that a listener of the cast does. -/
inductive Deed where
  | demand (demand : Demand)
  | consume
  | fail
  /-- Look up a key of the signal, which need not be there. -/
  | get (key : String) (absent : Json)
  /-- Look up a key of the signal, and fail if it is not there. -/
  | item (key : String)

/-- A deed, and how often it is done, if not every time. -/
structure Cue where
  deed : Deed
  limit : Option Nat

/-- The listeners with what they do. -/
abbrev Cast : Type := Table (List Cue)

/-- What is written down of a listener. -/
inductive Remark where
  | call (name : String) (signal : Signal Json)
  | did (verb : String) (answer : Answer)
  | got (value : Json)
  | item (value : Json)

/-- What is written down, the newest first, and what listeners are left. -/
structure Notes where
  remarks : List Remark
  log : List LogEntry
  /-- The cues with a limit that have been followed, by listener and position. -/
  followed : List (String × Nat)
  /-- How many listeners have been made. -/
  copies : Nat
  /-- The listeners that have been dropped. -/
  dropped : List String

namespace Notes

def blank : Notes := ⟨[], [], [], 0, []⟩

/-- The same, with nothing written down. -/
def cleared (notes : Notes) : Notes := { notes with remarks := [], log := [] }

def remark (notes : Notes) (remark : Remark) : Notes := { notes with remarks := remark :: notes.remarks }

/-- Whether a listener of the cast can still be named. -/
def knows (notes : Notes) (cast : Cast) (name : String) : Bool :=
  cast.contains name && !notes.dropped.contains name

end Notes

/-- Why a demand is not met. -/
inductive DemandFault where
  /-- It names a listener that is not there. -/
  | noListener (name : String)
  /-- The data of a signal have a key that is kept for something else. -/
  | reservedKey (key : String)
  /-- There is no room for one more delivery within those under way. -/
  | tooDeep
  deriving DecidableEq, Repr

def DemandFault.message : DemandFault → String
  | noListener name => Text.quote name
  | reservedKey key => s!"EventBus.publish() got multiple values for argument '{key}'"
  | tooDeep => "maximum recursion depth exceeded"

/-- The keys that the data of a signal cannot have. -/
def reservedKeys : List String := ["self", "event_type"]

/-- The first key of the data of a signal that they cannot have. -/
def reservedKey? (data : Json) : Option String :=
  ((data.obj?.getD []).map Prod.fst).find? (· ∈ reservedKeys)

/-- A demand as an action on the bus. -/
def Demand.action (cast : Cast) (notes : Notes) :
    Demand → Except DemandFault (Action Listener Json × Notes)
  | subscribe topic name priority once weak true =>
    .ok (.subscribe topic ⟨name, some notes.copies⟩ priority once weak,
      { notes with copies := notes.copies + 1 })
  | subscribe topic name priority once weak false =>
    if notes.knows cast name then .ok (.subscribe topic ⟨name, none⟩ priority once weak, notes)
    else .error (.noListener name)
  | unsubscribe topic name =>
    if notes.knows cast name then .ok (.unsubscribe topic ⟨name, none⟩, notes)
    else .error (.noListener name)
  | publish topic data =>
    match reservedKey? data with
    | some key => .error (.reservedKey key)
    | none => .ok (.publish ⟨topic, data⟩, notes)
  | clear topic => .ok (.clear topic, notes)
  | heard topic => .ok (.heard topic, notes)
  | drop name =>
    if notes.knows cast name then
      .ok (.release ⟨name, none⟩, { notes with dropped := name :: notes.dropped })
    else .error (.noListener name)

/-- Cues followed in turn, from a position on. -/
def follow (cast : Cast) (name : String) (signal : Signal Json) :
    Nat → List Cue → Notes → Program Listener Json Notes
  | _, [], notes => .done notes
  | position, cue :: rest, notes =>
    if cue.limit.any (· ≤ notes.followed.count (name, position)) then
      follow cast name signal (position + 1) rest notes
    else
      let notes :=
        if cue.limit.isSome then { notes with followed := (name, position) :: notes.followed } else notes
      match cue.deed with
      | .consume => .act .consume fun _ => follow cast name signal (position + 1) rest notes
      | .fail => .fail notes
      | .get key absent =>
        follow cast name signal (position + 1) rest
          (notes.remark (.got ((signal.data.field? key).getD absent)))
      | .item key =>
        match signal.data.field? key with
        | none => .fail notes
        | some value => follow cast name signal (position + 1) rest (notes.remark (.item value))
      | .demand demand =>
        match demand.action cast notes with
        | .error _ => .fail notes
        | .ok (action, notes) =>
          .act action fun said =>
            -- a signal that waits in the queue has not been consumed
            let said := match demand with
              | .publish .. => false
              | _ => said
            follow cast name signal (position + 1) rest
              (notes.remark (.did demand.verb (demand.answer said)))

/-- The report about a listener that failed. -/
def failureReport (topic : Topic) : LogEntry :=
  ⟨.error, s!"Error in event handler for RunnerEvent.{topic.name}"⟩

/-- The cast as an audience. -/
def Cast.audience (cast : Cast) : Audience Listener Json Notes where
  program entry signal notes :=
    let notes := notes.remark (.call entry.listener.name signal)
    match entry.listener.copy with
    | some _ => .done notes
    | none => follow cast entry.listener.name signal 0 ((cast.get? entry.listener.name).getD []) notes
  failed signal notes := { notes with log := failureReport signal.topic :: notes.log }

/-- A cast, a bus, and what is written down. -/
structure Listening where
  cast : Cast
  bus : Bus Listener Json
  notes : Notes

namespace Listening

def opening (cast : Cast) : Listening :=
  ⟨cast, .empty (cast.names.map fun name => ⟨name, none⟩), .blank⟩

/-- The same, with nothing written down. -/
def cleared (listening : Listening) : Listening := { listening with notes := listening.notes.cleared }

/-- A demand from outside, with nothing written down before it. -/
def step (listening : Listening) (demand : Demand) : Except DemandFault Answer × Listening :=
  let notes := listening.notes.cleared
  match demand.action listening.cast notes with
  | .error fault => (.error fault, { listening with notes })
  | .ok (action, notes) =>
    let (bus, notes, said) := listening.bus.operate listening.cast.audience Bus.deepest notes action
    match said with
    | none => (.error .tooDeep, { listening with bus, notes })
    | some said => (.ok (demand.answer said), { listening with bus, notes })

/-- The topics that anyone listens for. -/
def heard (listening : Listening) : List Topic := Topic.all.filter listening.bus.heard

end Listening

end Parley.Rehearsal
