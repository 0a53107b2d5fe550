import DroidMirror.Lib.Latch
import DroidMirror.Server.Text
import Mathlib.Data.List.Nodup

/-! # Injected keys

`android_to_linux` of `crates/server/src/keys.rs` and `UInput::key`. A modifier is
pressed by the meta state of the press of a key and released by that of a release,
and the two need not agree. `keys_released_iff` says of which calls no key stays
pressed. -/
namespace DroidMirror.Server
open DroidMirror.Lib.Run DroidMirror.Lib.Latch

def androidToLinux (keycode : UInt32) : Option UInt16 :=
  if keycode = 3 then some 172 -- HOME
  else if keycode = 4 then some 158 -- BACK
  else if keycode = 19 then some 103 -- DPAD_UP
  else if keycode = 20 then some 108 -- DPAD_DOWN
  else if keycode = 21 then some 105 -- DPAD_LEFT
  else if keycode = 22 then some 106 -- DPAD_RIGHT
  else if keycode = 24 then some 115 -- VOLUME_UP
  else if keycode = 25 then some 114 -- VOLUME_DOWN
  else if keycode = 26 then some 116 -- POWER
  else if 29 ≤ keycode ∧ keycode ≤ 54 then some (keycode - 29 + 30).toUInt16 -- A to Z
  else if keycode = 7 then some 11 -- 0
  else if 8 ≤ keycode ∧ keycode ≤ 16 then some (keycode - 8 + 2).toUInt16 -- 1 to 9
  else if keycode = 61 then some 15 -- TAB
  else if keycode = 62 then some 57 -- SPACE
  else if keycode = 66 then some 28 -- ENTER
  else if keycode = 67 then some 14 -- DEL
  else if keycode = 111 then some 1 -- ESCAPE
  else if keycode = 187 then some 139 -- APP_SWITCH
  else none

def KEY_LEFTCTRL : UInt16 := 29
def KEY_LEFTALT : UInt16 := 56

def META_SHIFT : UInt32 := 0x1
def META_ALT : UInt32 := 0x2
def META_CTRL : UInt32 := 0x1000

def ACTION_DOWN : UInt8 := 0
def ACTION_UP : UInt8 := 1
def ACTION_MOVE : UInt8 := 2
def ACTION_CANCEL : UInt8 := 3

/-- What `UInput::modifiers` writes. -/
def UInput.modifiers (metaState : UInt32) (down : Bool) : List Ev :=
  (if metaState &&& META_SHIFT ≠ 0 then keyEvents KEY_LEFTSHIFT down else []) ++
    (if metaState &&& META_ALT ≠ 0 then keyEvents KEY_LEFTALT down else []) ++
    (if metaState &&& META_CTRL ≠ 0 then keyEvents KEY_LEFTCTRL down else [])

/-- What `UInput::key` writes. Every action but a press releases. -/
def UInput.key (action : UInt8) (keycode metaState : UInt32) : List Ev :=
  match androidToLinux keycode with
  | none => []
  | some code =>
    let down : Bool := action = ACTION_DOWN
    (if down then UInput.modifiers metaState true else []) ++ keyEvents code down ++
      (if !down then UInput.modifiers metaState false else [])

/-! ## Calls -/

structure KeyCall where
  action : UInt8
  keycode : UInt32
  metaState : UInt32
  deriving DecidableEq

namespace KeyCall

def events (c : KeyCall) : List Ev := UInput.key c.action c.keycode c.metaState

/-- Every press of a keycode is later followed by a release of the keycode. -/
def Balanced : List KeyCall → Prop :=
  Answered (fun c => c.action = ACTION_DOWN) fun c u => u.action = ACTION_UP ∧ u.keycode = c.keycode

/-- The modifiers, as the bits of the meta state and their keys. -/
def modifierKeys : List (UInt32 × UInt16) :=
  [(META_SHIFT, KEY_LEFTSHIFT), (META_ALT, KEY_LEFTALT), (META_CTRL, KEY_LEFTCTRL)]

/-- The press of a key with the modifier held. -/
def PressesModifier (m : UInt32 × UInt16) (c : KeyCall) : Prop :=
  c.action = ACTION_DOWN ∧ (androidToLinux c.keycode).isSome ∧ c.metaState &&& m.1 ≠ 0

/-- The release of a key with the modifier held, or of a key that is the modifier's. -/
def ReleasesModifier (m : UInt32 × UInt16) (c : KeyCall) : Prop :=
  c.action ≠ ACTION_DOWN ∧ ((androidToLinux c.keycode).isSome ∧ c.metaState &&& m.1 ≠ 0 ∨
    androidToLinux c.keycode = some m.2)

/-- Every press of a key with a modifier held is later followed by a release with
that modifier held. -/
def ModifiersHeld (calls : List KeyCall) : Prop :=
  ∀ m ∈ modifierKeys, Answered (PressesModifier m) (fun _ => ReleasesModifier m) calls

instance (calls : List KeyCall) : Decidable (Balanced calls) :=
  inferInstanceAs (Decidable (Answered _ _ calls))

instance (m : UInt32 × UInt16) (c : KeyCall) : Decidable (PressesModifier m c) :=
  inferInstanceAs (Decidable (_ ∧ _ ∧ _))

instance (m : UInt32 × UInt16) (c : KeyCall) : Decidable (ReleasesModifier m c) :=
  inferInstanceAs (Decidable (_ ∧ (_ ∧ _ ∨ _)))

instance (calls : List KeyCall) : Decidable (ModifiersHeld calls) :=
  List.decidableBAll _ modifierKeys

/-! ## The keys of a call -/

/-- The keys a call presses or releases. -/
def keys (c : KeyCall) : List UInt16 :=
  match androidToLinux c.keycode with
  | none => []
  | some code => code :: (modifierKeys.filter fun m => c.metaState &&& m.1 ≠ 0).map Prod.snd

/-- What a call does to a key. -/
def sets (code : UInt16) (c : KeyCall) : Option Bool :=
  if code ∈ c.keys then some (c.action = ACTION_DOWN) else none

theorem mem_keys {c : KeyCall} {code : UInt16} : code ∈ c.keys ↔ androidToLinux c.keycode = some code ∨
    ∃ m ∈ modifierKeys, (androidToLinux c.keycode).isSome ∧ c.metaState &&& m.1 ≠ 0 ∧ m.2 = code := by
  unfold keys
  cases androidToLinux c.keycode with
  | none => simp
  | some key =>
    simp only [List.mem_cons, List.mem_map, List.mem_filter, decide_eq_true_eq, Option.some.injEq,
      Option.isSome_some, true_and, and_assoc]
    exact or_congr_left eq_comm

/-- What a run of presses, or of releases, leaves of a key. -/
theorem keysAfter_flatMap_keyEvents (down : UInt16 → Bool) (codes : List UInt16) (pressed : Bool)
    (code : UInt16) : keysAfter down (codes.flatMap fun k => keyEvents k pressed) code =
      if code ∈ codes then pressed else down code := by
  induction codes generalizing down with
  | nil => simp [keysAfter]
  | cons k codes ih =>
    rw [List.flatMap_cons, keysAfter_append, ih, keysAfter_keyEvents]
    by_cases hk : code = k
    · simp [hk]
    · simp [hk]

theorem modifiers_eq_flatMap (metaState : UInt32) (pressed : Bool) : UInput.modifiers metaState pressed =
    ((modifierKeys.filter fun m => metaState &&& m.1 ≠ 0).map Prod.snd).flatMap
      fun k => keyEvents k pressed := by
  unfold UInput.modifiers modifierKeys
  by_cases hs : metaState &&& META_SHIFT = 0 <;> by_cases ha : metaState &&& META_ALT = 0 <;>
    by_cases hc : metaState &&& META_CTRL = 0 <;> simp [hs, ha, hc]

/-- A call presses or releases its keys one after another. -/
theorem exists_events_eq_flatMap (c : KeyCall) : ∃ codes : List UInt16, codes.Perm c.keys ∧
    c.events = codes.flatMap fun k => keyEvents k (c.action = ACTION_DOWN) := by
  unfold events UInput.key keys
  cases androidToLinux c.keycode with
  | none => exact ⟨[], List.Perm.refl [], rfl⟩
  | some key =>
    by_cases hdown : c.action = ACTION_DOWN
    · refine ⟨_ ++ [key], List.perm_append_singleton key _, ?_⟩
      simp [hdown, modifiers_eq_flatMap]
    · refine ⟨_, List.Perm.refl _, ?_⟩
      simp [hdown, modifiers_eq_flatMap]

theorem keysAfter_events (down : UInt16 → Bool) (c : KeyCall) (code : UInt16) :
    keysAfter down c.events code = (c.sets code).getD (down code) := by
  obtain ⟨codes, hperm, heq⟩ := exists_events_eq_flatMap c
  rw [heq, keysAfter_flatMap_keyEvents, sets]
  simp only [hperm.mem_iff]
  split <;> rfl

/-- A key after the calls is a latch that they set. -/
theorem keysAfter_flatMap_events (down : UInt16 → Bool) (calls : List KeyCall) (code : UInt16) :
    keysAfter down (calls.flatMap events) code = latch (sets code) (down code) calls := by
  induction calls generalizing down with
  | nil => rfl
  | cons c calls ih =>
    rw [List.flatMap_cons, keysAfter_append, ih, keysAfter_events]
    rfl

theorem sets_eq_true {code : UInt16} {c : KeyCall} :
    c.sets code = some true ↔ c.action = ACTION_DOWN ∧ code ∈ c.keys := by
  unfold sets
  split
  · rename_i hmem
    simp [hmem]
  · rename_i hmem
    simp [hmem]

theorem sets_eq_false {code : UInt16} {c : KeyCall} :
    c.sets code = some false ↔ c.action ≠ ACTION_DOWN ∧ code ∈ c.keys := by
  unfold sets
  split
  · rename_i hmem
    simp [hmem]
  · rename_i hmem
    simp [hmem]

/-! ## Keys that stay pressed -/

theorem releasesModifier_of_sets {m : UInt32 × UInt16} (hm : m ∈ modifierKeys) {c : KeyCall}
    (h : c.sets m.2 = some false) : ReleasesModifier m c := by
  obtain ⟨hup, hmem⟩ := sets_eq_false.mp h
  refine ⟨hup, ?_⟩
  rcases mem_keys.mp hmem with hkey | ⟨m', hm', hmapped, hbit, hcode⟩
  · exact .inr hkey
  · have hnodup : (modifierKeys.map Prod.snd).Nodup := by decide
    cases List.inj_on_of_nodup_map hnodup hm' hm hcode
    exact .inl ⟨hmapped, hbit⟩

theorem sets_of_releasesModifier {m : UInt32 × UInt16} (hm : m ∈ modifierKeys) {c : KeyCall}
    (h : ReleasesModifier m c) : c.sets m.2 = some false := by
  refine sets_eq_false.mpr ⟨h.1, mem_keys.mpr ?_⟩
  rcases h.2 with ⟨hmapped, hbit⟩ | hkey
  · exact .inr ⟨m, hm, hmapped, hbit, rfl⟩
  · exact .inl hkey

/-- Of the calls that release every key they press, no key stays pressed exactly
where the modifiers held at a press are held at a later release. -/
theorem keys_released_iff {calls : List KeyCall} (h : Balanced calls) :
    (∀ code, keysAfter (fun _ => false) (calls.flatMap events) code = false) ↔ ModifiersHeld calls := by
  simp only [keysAfter_flatMap_events, latch_eq_false_iff]
  constructor
  · intro hoff m hm
    refine (hoff m.2).mono ?_ ?_
    · intro c hc
      exact sets_eq_true.mpr ⟨hc.1, mem_keys.mpr (.inr ⟨m, hm, hc.2.1, hc.2.2, rfl⟩)⟩
    · intro _ u _ hu
      exact releasesModifier_of_sets hm hu
  · intro hheld code a c b hsplit hc
    obtain ⟨hdown, hmem⟩ := sets_eq_true.mp hc
    rcases mem_keys.mp hmem with hkey | ⟨m, hm, hmapped, hbit, rfl⟩
    · -- the key of the call itself comes up with the release of its keycode
      obtain ⟨u, hu, hup, hcode⟩ := h a c b hsplit hdown
      refine ⟨u, hu, sets_eq_false.mpr ⟨?_, mem_keys.mpr (.inl (hcode ▸ hkey))⟩⟩
      rw [hup]
      decide
    · obtain ⟨u, hu, hrel⟩ := hheld m hm a c b hsplit ⟨hdown, hmapped, hbit⟩
      exact ⟨u, hu, sets_of_releasesModifier hm hrel⟩

/-- Two letters with Shift, one released after Shift. -/
theorem keys_released_overlap :
    let calls : List KeyCall := [⟨ACTION_DOWN, 29, META_SHIFT⟩, ⟨ACTION_DOWN, 30, META_SHIFT⟩,
      ⟨ACTION_UP, 29, META_SHIFT⟩, ⟨ACTION_UP, 30, 0⟩]
    Balanced calls ∧ ∀ code, keysAfter (fun _ => false) (calls.flatMap events) code = false :=
  ⟨by decide, (keys_released_iff (by decide)).mpr (by decide)⟩

/-- Shift let go before the letter stays pressed. -/
theorem shift_stays_pressed : ¬ ∀ calls : List KeyCall, Balanced calls →
    ∀ code, keysAfter (fun _ => false) (calls.flatMap events) code = false := by
  intro h
  have hup := h [⟨ACTION_DOWN, 29, META_SHIFT⟩, ⟨ACTION_UP, 29, 0⟩] (by decide) KEY_LEFTSHIFT
  exact absurd hup (by decide)

end KeyCall
end DroidMirror.Server
