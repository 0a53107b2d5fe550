import Mathlib.Logic.Function.Basic

/-! # Input events

`crates/server/src/inject.rs`: the events written to the server's input device,
and what its keys make of them. -/
namespace DroidMirror.Server

def EV_SYN : UInt16 := 0x00
def EV_KEY : UInt16 := 0x01
def SYN_REPORT : UInt16 := 0x00

structure Ev where
  type : UInt16
  code : UInt16
  value : Int32
  deriving DecidableEq, Repr

def keyEvents (code : UInt16) (down : Bool) : List Ev :=
  [⟨EV_KEY, code, if down then 1 else 0⟩, ⟨EV_SYN, SYN_REPORT, 0⟩]

/-! ## Keys -/

/-- Which keys are down after the events, if `down` were before. -/
def keysAfter (down : UInt16 → Bool) : List Ev → UInt16 → Bool
  | [] => down
  | e :: events =>
    if e.type = EV_KEY then keysAfter (Function.update down e.code (e.value ≠ 0)) events
    else keysAfter down events

theorem keysAfter_append (down : UInt16 → Bool) (events later : List Ev) :
    keysAfter down (events ++ later) = keysAfter (keysAfter down events) later := by
  induction events generalizing down with
  | nil => rfl
  | cons e events ih =>
    simp only [List.cons_append, keysAfter]
    split
    · exact ih _
    · exact ih _

@[simp] theorem keysAfter_keyEvents (down : UInt16 → Bool) (code : UInt16) (pressed : Bool) :
    keysAfter down (keyEvents code pressed) = Function.update down code pressed := by
  cases pressed <;> rfl

end DroidMirror.Server
