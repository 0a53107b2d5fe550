import DroidMirror.Lib.Run
import DroidMirror.Server.Keys

/-! # Touch slots

`TouchSlots` of `crates/server/src/inject.rs`, and the touch panel that its events
drive. The slots keep one flag each of what the panel shows
(`TouchCall.apply_protocol`). -/
namespace DroidMirror.Server
open DroidMirror.Lib.Run

def EV_ABS : UInt16 := 0x03

def ABS_MT_SLOT : UInt16 := 0x2f
def ABS_MT_TOUCH_MAJOR : UInt16 := 0x30
def ABS_MT_POSITION_X : UInt16 := 0x35
def ABS_MT_POSITION_Y : UInt16 := 0x36
def ABS_MT_TRACKING_ID : UInt16 := 0x39
def ABS_MT_PRESSURE : UInt16 := 0x3a

def BTN_TOUCH : UInt16 := 0x14a

structure TouchSlots where
  down : Vector Bool 10
  deriving DecidableEq

namespace TouchSlots

def new : TouchSlots := ⟨Vector.replicate 10 false⟩

def isDown (t : TouchSlots) (k : Fin 10) : Bool := getElem t.down k.val k.isLt

def set (t : TouchSlots) (k : Fin 10) (on : Bool) : TouchSlots := ⟨t.down.set k on k.isLt⟩

@[simp] theorem isDown_new (k : Fin 10) : new.isDown k = false := by
  simp [new, isDown]

theorem isDown_set (t : TouchSlots) (k : Fin 10) (on : Bool) (j : Fin 10) :
    (t.set k on).isDown j = if j = k then on else t.isDown j := by
  simp [isDown, set, Vector.getElem_set, Fin.ext_iff, eq_comm]

/-- The ids from 9 on share the last slot. -/
def slotOf (id : UInt8) : Fin 10 := ⟨min id.toNat 9, by omega⟩

def button (t : TouchSlots) : Int32 := if t.down.any fun d => d then 1 else 0

theorem toInt_ofNat (k : Fin 10) : (Int32.ofNat k).toInt = k := Int32.toInt_ofNat_of_lt (by omega)

theorem ofNat_nonneg (k : Fin 10) : (0 : Int32) ≤ .ofNat k := by
  rw [Int32.le_iff_toInt_le, toInt_ofNat]
  exact Int.natCast_nonneg k

/-- What ends every batch. -/
def closing (t : TouchSlots) : List Ev := [⟨EV_KEY, BTN_TOUCH, t.button⟩, ⟨EV_SYN, SYN_REPORT, 0⟩]

def apply (t : TouchSlots) (action id : UInt8) (x y : Int32) (pressure : UInt16) : List Ev × TouchSlots :=
  let slot := slotOf id
  let out : List Ev := [⟨EV_ABS, ABS_MT_SLOT, .ofNat slot⟩]
  if action = ACTION_UP ∨ action = ACTION_CANCEL then
    let t' := t.set slot false
    (out ++ [⟨EV_ABS, ABS_MT_TRACKING_ID, -1⟩] ++ t'.closing, t')
  else if action = ACTION_DOWN ∨ action = ACTION_MOVE then
    let tracking : List Ev := if action = ACTION_DOWN ∨ !t.isDown slot then
      [⟨EV_ABS, ABS_MT_TRACKING_ID, .ofNat slot⟩] else []
    let t' := t.set slot true
    (out ++ tracking ++ [⟨EV_ABS, ABS_MT_POSITION_X, x⟩, ⟨EV_ABS, ABS_MT_POSITION_Y, y⟩,
      ⟨EV_ABS, ABS_MT_PRESSURE, .ofNat (min pressure.toNat 255)⟩, ⟨EV_ABS, ABS_MT_TOUCH_MAJOR, 6⟩] ++
      t'.closing, t')
  else ([], t)

end TouchSlots

/-! ## The panel

What the kernel makes of the events of a device with ten slots: position, pressure
and tracking id go to the slot selected last. -/

structure Contact where
  tracking : Int32
  x : Int32
  y : Int32
  pressure : Int32
  deriving DecidableEq

def Contact.Active (c : Contact) : Prop := 0 ≤ c.tracking

instance (c : Contact) : Decidable c.Active := inferInstanceAs (Decidable (_ ≤ _))

structure Panel where
  slot : Fin 10
  contacts : Fin 10 → Contact
  btnTouch : Int32

namespace Panel

def new : Panel := ⟨0, fun _ => ⟨-1, 0, 0, 0⟩, 0⟩

def contact (p : Panel) : Contact := p.contacts p.slot

def setContact (p : Panel) (c : Contact) : Panel := { p with contacts := Function.update p.contacts p.slot c }

/-- The selection of a slot the device does not have is ignored. -/
def event (p : Panel) (e : Ev) : Panel :=
  if e.type = EV_KEY ∧ e.code = BTN_TOUCH then { p with btnTouch := e.value }
  else if e.type ≠ EV_ABS then p
  else if e.code = ABS_MT_SLOT then
    if h : 0 ≤ e.value.toInt ∧ e.value.toInt < 10 then { p with slot := ⟨e.value.toInt.toNat, by omega⟩ } else p
  else if e.code = ABS_MT_TRACKING_ID then p.setContact { p.contact with tracking := e.value }
  else if e.code = ABS_MT_POSITION_X then p.setContact { p.contact with x := e.value }
  else if e.code = ABS_MT_POSITION_Y then p.setContact { p.contact with y := e.value }
  else if e.code = ABS_MT_PRESSURE then p.setContact { p.contact with pressure := e.value }
  else p

def replay (p : Panel) (events : List Ev) : Panel := events.foldl event p

@[simp] theorem event_slot (p : Panel) (s : Fin 10) :
    p.event ⟨EV_ABS, ABS_MT_SLOT, .ofNat s⟩ = { p with slot := s } := by
  have hs := TouchSlots.toInt_ofNat s
  have hlt : ((s : Nat) : Int) < 10 := by omega
  simp [event, hs, hlt, EV_ABS, EV_KEY]

@[simp] theorem event_tracking (p : Panel) (v : Int32) :
    p.event ⟨EV_ABS, ABS_MT_TRACKING_ID, v⟩ = p.setContact { p.contact with tracking := v } := rfl

@[simp] theorem event_x (p : Panel) (v : Int32) :
    p.event ⟨EV_ABS, ABS_MT_POSITION_X, v⟩ = p.setContact { p.contact with x := v } := rfl

@[simp] theorem event_y (p : Panel) (v : Int32) :
    p.event ⟨EV_ABS, ABS_MT_POSITION_Y, v⟩ = p.setContact { p.contact with y := v } := rfl

@[simp] theorem event_pressure (p : Panel) (v : Int32) :
    p.event ⟨EV_ABS, ABS_MT_PRESSURE, v⟩ = p.setContact { p.contact with pressure := v } := rfl

@[simp] theorem event_major (p : Panel) (v : Int32) : p.event ⟨EV_ABS, ABS_MT_TOUCH_MAJOR, v⟩ = p := rfl

@[simp] theorem event_button (p : Panel) (v : Int32) :
    p.event ⟨EV_KEY, BTN_TOUCH, v⟩ = { p with btnTouch := v } := rfl

@[simp] theorem event_report (p : Panel) (v : Int32) : p.event ⟨EV_SYN, SYN_REPORT, v⟩ = p := rfl

@[simp] theorem setContact_slot (p : Panel) (c : Contact) : (p.setContact c).slot = p.slot := rfl

@[simp] theorem setContact_contact (p : Panel) (c : Contact) : (p.setContact c).contact = c := by
  simp [setContact, contact]

@[simp] theorem setContact_setContact (p : Panel) (c d : Contact) :
    (p.setContact c).setContact d = p.setContact d := by
  simp [setContact]

@[simp] theorem replay_nil (p : Panel) : p.replay [] = p := rfl

@[simp] theorem replay_cons (p : Panel) (e : Ev) (events : List Ev) :
    p.replay (e :: events) = (p.event e).replay events := rfl

end Panel

/-! ## Calls -/

structure TouchCall where
  action : UInt8
  id : UInt8
  x : Int32
  y : Int32
  pressure : UInt16
  deriving DecidableEq

namespace TouchCall

def Presses (c : TouchCall) : Prop := c.action = ACTION_DOWN ∨ c.action = ACTION_MOVE

def Lifts (c : TouchCall) : Prop := c.action = ACTION_UP ∨ c.action = ACTION_CANCEL

instance (c : TouchCall) : Decidable c.Presses := inferInstanceAs (Decidable (_ ∨ _))

instance (c : TouchCall) : Decidable c.Lifts := inferInstanceAs (Decidable (_ ∨ _))

theorem Lifts.not_presses {c : TouchCall} (h : c.Lifts) : ¬ c.Presses := by
  have hne : ∀ a : UInt8, a = ACTION_UP ∨ a = ACTION_CANCEL → ¬ (a = ACTION_DOWN ∨ a = ACTION_MOVE) := by
    rintro a (rfl | rfl) <;> decide
  exact hne c.action h

def slot (c : TouchCall) : Fin 10 := TouchSlots.slotOf c.id

def apply (c : TouchCall) (t : TouchSlots) : List Ev × TouchSlots :=
  t.apply c.action c.id c.x c.y c.pressure

/-- The panel follows the slots. -/
def step (s : TouchSlots × Panel) (c : TouchCall) : TouchSlots × Panel :=
  ((c.apply s.1).2, s.2.replay (c.apply s.1).1)

/-- The slots and the panel after the calls. -/
def after (calls : List TouchCall) : TouchSlots × Panel := calls.foldl step (TouchSlots.new, Panel.new)

theorem after_snoc (calls : List TouchCall) (c : TouchCall) : after (calls ++ [c]) = step (after calls) c :=
  List.foldl_append

/-- A press tracks a contact anew unless it moves one that is down. -/
def tracks (c : TouchCall) (t : TouchSlots) : List Ev :=
  if c.action = ACTION_DOWN ∨ !t.isDown c.slot then [⟨EV_ABS, ABS_MT_TRACKING_ID, .ofNat c.slot⟩] else []

def places (c : TouchCall) : List Ev :=
  [⟨EV_ABS, ABS_MT_POSITION_X, c.x⟩, ⟨EV_ABS, ABS_MT_POSITION_Y, c.y⟩,
    ⟨EV_ABS, ABS_MT_PRESSURE, .ofNat (min c.pressure.toNat 255)⟩, ⟨EV_ABS, ABS_MT_TOUCH_MAJOR, 6⟩]

theorem apply_lifts {c : TouchCall} (h : c.Lifts) (t : TouchSlots) : c.apply t =
    (⟨EV_ABS, ABS_MT_SLOT, .ofNat c.slot⟩ :: ⟨EV_ABS, ABS_MT_TRACKING_ID, -1⟩ ::
      (t.set c.slot false).closing, t.set c.slot false) := by
  have hact : c.action = ACTION_UP ∨ c.action = ACTION_CANCEL := h
  simp only [apply, TouchSlots.apply, if_pos hact]
  rfl

theorem apply_presses {c : TouchCall} (h : c.Presses) (t : TouchSlots) : c.apply t =
    (⟨EV_ABS, ABS_MT_SLOT, .ofNat c.slot⟩ :: (c.tracks t ++ (c.places ++
      (t.set c.slot true).closing)), t.set c.slot true) := by
  have hact : c.action = ACTION_DOWN ∨ c.action = ACTION_MOVE := h
  have hlift : ¬ (c.action = ACTION_UP ∨ c.action = ACTION_CANCEL) := fun hl => Lifts.not_presses hl h
  simp only [apply, TouchSlots.apply, if_neg hlift, if_pos hact, List.append_assoc]
  rfl

theorem apply_unknown {c : TouchCall} (hp : ¬ c.Presses) (hl : ¬ c.Lifts) (t : TouchSlots) :
    c.apply t = ([], t) := by
  unfold Presses at hp
  unfold Lifts at hl
  simp only [apply, TouchSlots.apply, if_neg hl, if_neg hp]

/-- The contact a press leaves. -/
def pressed (c : TouchCall) (t : TouchSlots) (k : Contact) : Contact where
  tracking := if c.action = ACTION_DOWN ∨ !t.isDown c.slot then .ofNat c.slot else k.tracking
  x := c.x
  y := c.y
  pressure := .ofNat (min c.pressure.toNat 255)

theorem step_lifts {c : TouchCall} (h : c.Lifts) (t : TouchSlots) (p : Panel) : step (t, p) c =
    (t.set c.slot false, ⟨c.slot, Function.update p.contacts c.slot { p.contacts c.slot with tracking := -1 },
      (t.set c.slot false).button⟩) := by
  simp [step, apply_lifts h, TouchSlots.closing, Panel.setContact, Panel.contact]

theorem step_presses {c : TouchCall} (h : c.Presses) (t : TouchSlots) (p : Panel) : step (t, p) c =
    (t.set c.slot true, ⟨c.slot, Function.update p.contacts c.slot (c.pressed t (p.contacts c.slot)),
      (t.set c.slot true).button⟩) := by
  rw [step, apply_presses h]
  unfold tracks pressed
  split
  · simp [places, TouchSlots.closing, Panel.setContact, Panel.contact]
  · simp [places, TouchSlots.closing, Panel.setContact, Panel.contact]

/-! ## The slots and the panel -/

/-- The panel tracks slot `s` under the number `s` while the flag is set. -/
structure Shows (s : TouchSlots × Panel) : Prop where
  tracking : ∀ k : Fin 10, (s.2.contacts k).tracking = if s.1.isDown k then .ofNat k else -1
  button : s.2.btnTouch = s.1.button

theorem shows_new : Shows (TouchSlots.new, Panel.new) where
  tracking := by simp [Panel.new]
  button := by simp [TouchSlots.new, Panel.new, TouchSlots.button]

theorem Shows.step {s : TouchSlots × Panel} (h : Shows s) (c : TouchCall) : Shows (step s c) := by
  obtain ⟨t, p⟩ := s
  by_cases hp : c.Presses
  · rw [step_presses hp]
    refine ⟨?_, rfl⟩
    intro k
    by_cases hk : k = c.slot
    · cases hk
      have hold : (p.contacts c.slot).tracking = if t.isDown c.slot then .ofNat c.slot else -1 :=
        h.tracking c.slot
      simp only [Function.update_self, pressed, TouchSlots.isDown_set, if_true]
      split
      · rfl
      · rename_i htrack
        rw [hold, if_pos (by simpa using (not_or.mp htrack).2)]
    · simpa [Function.update_of_ne hk, TouchSlots.isDown_set, hk] using h.tracking k
  · by_cases hl : c.Lifts
    · rw [step_lifts hl]
      refine ⟨?_, rfl⟩
      intro k
      by_cases hk : k = c.slot
      · simp [hk, TouchSlots.isDown_set]
      · simpa [Function.update_of_ne hk, TouchSlots.isDown_set, hk] using h.tracking k
    · simpa [TouchCall.step, apply_unknown hp hl] using h

theorem shows_after (calls : List TouchCall) : Shows (after calls) := by
  induction calls using List.reverseRecOn with
  | nil => exact shows_new
  | append_singleton calls c ih => exact after_snoc calls c ▸ ih.step c

theorem Shows.active_iff {s : TouchSlots × Panel} (h : Shows s) (k : Fin 10) :
    (s.2.contacts k).Active ↔ s.1.isDown k = true := by
  unfold Contact.Active
  rw [h.tracking k]
  split
  · rename_i hdown
    exact iff_of_true (TouchSlots.ofNat_nonneg k) hdown
  · rename_i hdown
    refine iff_of_false ?_ hdown
    decide

/-! ## Protocol B -/

/-- The panel is as the slots say, and tells its contacts apart. -/
structure Mirrors (s : TouchSlots × Panel) : Prop where
  active : ∀ k : Fin 10, (s.2.contacts k).Active ↔ s.1.isDown k = true
  button : s.2.btnTouch = 1 ↔ ∃ k, (s.2.contacts k).Active
  range : ∀ k, (s.2.contacts k).Active → 0 ≤ (s.2.contacts k).tracking ∧ (s.2.contacts k).tracking ≤ 9
  distinct : ∀ j k, (s.2.contacts j).Active → (s.2.contacts k).Active →
    (s.2.contacts j).tracking = (s.2.contacts k).tracking → j = k

/-- The events that say where a contact is. -/
def Places (e : Ev) : Prop :=
  e.type = EV_ABS ∧ (e.code = ABS_MT_POSITION_X ∨ e.code = ABS_MT_POSITION_Y ∨ e.code = ABS_MT_PRESSURE)

/-- A call's events select its slot, place only a contact that is there, and end in
the one report; those of an unknown action are none. -/
structure Batch (s : TouchSlots × Panel) (c : TouchCall) : Prop where
  selects : (c.apply s.1).1 ≠ [] → (c.apply s.1).1.head? = some ⟨EV_ABS, ABS_MT_SLOT, .ofNat c.slot⟩
  placed : Meets (fun p e => some (p.event e)) (fun p e => Places e → p.slot = c.slot ∧ p.contact.Active)
    s.2 (c.apply s.1).1
  reports : (c.apply s.1).1 ≠ [] → ∃ front, (c.apply s.1).1 = front ++ [⟨EV_SYN, SYN_REPORT, 0⟩] ∧
    ∀ e ∈ front, e.type ≠ EV_SYN
  unknown : ¬ c.Presses → ¬ c.Lifts → c.apply s.1 = ([], s.1)

theorem button_eq_one {t : TouchSlots} : t.button = 1 ↔ ∃ k : Fin 10, t.isDown k = true := by
  unfold TouchSlots.button
  by_cases h : t.down.any fun d => d
  · rw [if_pos h]
    obtain ⟨k, hk, hdown⟩ := Vector.any_eq_true.mp h
    exact iff_of_true rfl ⟨⟨k, hk⟩, hdown⟩
  · rw [if_neg h]
    refine iff_of_false (by decide) ?_
    rintro ⟨k, hk⟩
    exact h (Vector.any_eq_true.mpr ⟨k, k.isLt, hk⟩)

theorem Shows.tracking_of_active {s : TouchSlots × Panel} (h : Shows s) {k : Fin 10}
    (hk : (s.2.contacts k).Active) : (s.2.contacts k).tracking = .ofNat k := by
  rw [h.tracking k, if_pos ((h.active_iff k).mp hk)]

theorem Shows.mirrors {s : TouchSlots × Panel} (h : Shows s) : Mirrors s where
  active := h.active_iff
  button := by
    rw [h.button, button_eq_one]
    exact exists_congr fun k => (h.active_iff k).symm
  range := by
    intro k hk
    refine ⟨hk, ?_⟩
    rw [h.tracking_of_active hk, Int32.le_iff_toInt_le, TouchSlots.toInt_ofNat]
    have hnine : (9 : Int32).toInt = 9 := by decide
    omega
  distinct := by
    intro j k hj hk heq
    rw [h.tracking_of_active hj, h.tracking_of_active hk] at heq
    have hval := congrArg Int32.toInt heq
    rw [TouchSlots.toInt_ofNat, TouchSlots.toInt_ofNat] at hval
    omega

theorem not_places_slot (v : Int32) : ¬ Places ⟨EV_ABS, ABS_MT_SLOT, v⟩ := by
  simp [Places, ABS_MT_SLOT, ABS_MT_POSITION_X, ABS_MT_POSITION_Y, ABS_MT_PRESSURE]

theorem not_places_tracking (v : Int32) : ¬ Places ⟨EV_ABS, ABS_MT_TRACKING_ID, v⟩ := by
  simp [Places, ABS_MT_TRACKING_ID, ABS_MT_POSITION_X, ABS_MT_POSITION_Y, ABS_MT_PRESSURE]

theorem not_places_button (v : Int32) : ¬ Places ⟨EV_KEY, BTN_TOUCH, v⟩ := by
  simp [Places, EV_KEY, EV_ABS]

theorem not_places_report (v : Int32) : ¬ Places ⟨EV_SYN, SYN_REPORT, v⟩ := by
  simp [Places, EV_SYN, EV_ABS]

theorem Shows.batch {s : TouchSlots × Panel} (h : Shows s) (c : TouchCall) : Batch s c where
  selects := by
    intro hne
    by_cases hp : c.Presses
    · rw [apply_presses hp]
      rfl
    · by_cases hl : c.Lifts
      · rw [apply_lifts hl]
        rfl
      · rw [apply_unknown hp hl] at hne
        cases hne rfl
  placed := by
    by_cases hp : c.Presses
    · have htrack := TouchSlots.ofNat_nonneg c.slot
      rw [apply_presses hp]
      unfold tracks
      split
      · simp [Meets, places, TouchSlots.closing, Panel.contact, Panel.setContact, Contact.Active, htrack,
          not_places_slot, not_places_tracking]
      · rename_i hold
        have hactive : 0 ≤ (s.2.contacts c.slot).tracking :=
          (h.active_iff c.slot).mpr (by simpa using (not_or.mp hold).2)
        simp [Meets, places, TouchSlots.closing, Panel.contact, Panel.setContact, Contact.Active, hactive,
          not_places_slot]
    · by_cases hl : c.Lifts
      · rw [apply_lifts hl]
        simp [Meets, TouchSlots.closing, not_places_slot, not_places_tracking, not_places_button,
          not_places_report]
      · rw [apply_unknown hp hl]
        trivial
  reports := by
    have habs : EV_ABS ≠ EV_SYN := by decide
    have hkey : EV_KEY ≠ EV_SYN := by decide
    intro hne
    by_cases hp : c.Presses
    · rw [apply_presses hp]
      refine ⟨⟨EV_ABS, ABS_MT_SLOT, .ofNat c.slot⟩ :: (c.tracks s.1 ++ (c.places ++
        [⟨EV_KEY, BTN_TOUCH, (s.1.set c.slot true).button⟩])), ?_, ?_⟩
      · simp [TouchSlots.closing]
      · unfold tracks
        split <;> simp [places, habs, hkey]
    · by_cases hl : c.Lifts
      · rw [apply_lifts hl]
        refine ⟨[⟨EV_ABS, ABS_MT_SLOT, .ofNat c.slot⟩, ⟨EV_ABS, ABS_MT_TRACKING_ID, -1⟩,
          ⟨EV_KEY, BTN_TOUCH, (s.1.set c.slot false).button⟩], rfl, ?_⟩
        simp [habs, hkey]
      · rw [apply_unknown hp hl] at hne
        cases hne rfl
  unknown hp hl := apply_unknown hp hl s.1

/-- After any calls the panel is as the slots say, and the next call's events are
a batch for it. -/
theorem apply_protocol (calls : List TouchCall) :
    Mirrors (after calls) ∧ ∀ c, Batch (after calls) c :=
  ⟨(shows_after calls).mirrors, (shows_after calls).batch⟩

end TouchCall
end DroidMirror.Server
