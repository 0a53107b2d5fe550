import DroidMirror.Client.Input
import DroidMirror.Server.Touch

/-! # Pointers

The touches of several pointers on the ten slots. The ids from 9 on meet on the
last slot, and `independent_iff` says of which touches the pointers stay apart all
the same. -/
namespace DroidMirror.Server
open DroidMirror.Lib.Run DroidMirror.Lib.Latch

structure PointerTouch where
  action : TouchAction
  id : UInt8
  x : Int32
  y : Int32
  pressure : UInt16
  deriving DecidableEq

namespace PointerTouch
open TouchSlots (slotOf)

def call (c : PointerTouch) : TouchCall := ⟨c.action.toU8, c.id, c.x, c.y, c.pressure⟩

def holds (c : PointerTouch) : Bool := c.action = .down ∨ c.action = .move

def after (touches : List PointerTouch) : TouchSlots × Panel := TouchCall.after (touches.map call)

/-- The pointer's latest action is a Down or a Move. -/
def IsDown (touches : List PointerTouch) (id : UInt8) : Prop :=
  latch (fun c : PointerTouch => if c.id = id then some c.holds else none) false touches = true

instance (touches : List PointerTouch) (id : UInt8) : Decidable (IsDown touches id) :=
  inferInstanceAs (Decidable (_ = _))

/-- Neither ended nor moved. -/
structure Kept (k k' : Contact) : Prop where
  active : k.Active → k'.Active
  x : k'.x = k.x
  y : k'.y = k.y

/-- After the touch the button says whether a pointer is down, and the contacts of
the other pointers that were are kept. -/
structure Alone (before : List PointerTouch) (c : PointerTouch) : Prop where
  button : (after (before ++ [c])).2.btnTouch = 1 ↔ ∃ id, IsDown (before ++ [c]) id
  kept : ∀ id, id ≠ c.id → IsDown before id →
    Kept ((after before).2.contacts (slotOf id)) ((after (before ++ [c])).2.contacts (slotOf id))

def Independent : List PointerTouch → Prop := Each Alone

/-- Where the ids from 9 on were put last. -/
def sharedPoint : List PointerTouch → Int32 × Int32 :=
  latch (fun c : PointerTouch => if 9 ≤ c.id ∧ c.holds then some (c.x, c.y) else none) (0, 0)

/-- No id from 9 on is touched while another of them is down, but to hold it where
that one is. -/
def Apart : List PointerTouch → Prop :=
  Each fun before c => 9 ≤ c.id → (∃ id, id ≠ c.id ∧ 9 ≤ id ∧ IsDown before id) →
    c.holds ∧ (c.x, c.y) = sharedPoint before

/-! ## The slots -/

theorem slotOf_eq_iff {i j : UInt8} (h : i ≠ j) : slotOf i = slotOf j ↔ 9 ≤ i ∧ 9 ≤ j := by
  have hne : i.toNat ≠ j.toNat := fun heq => h (UInt8.toNat_inj.mp heq)
  simp only [slotOf, Fin.mk.injEq, UInt8.le_iff_toNat_le, UInt8.reduceToNat]
  omega

theorem slotOf_of_le {i : UInt8} (h : 9 ≤ i) : slotOf i = 9 := by
  rw [UInt8.le_iff_toNat_le] at h
  exact Fin.ext (Nat.min_eq_right h)

theorem after_snoc (touches : List PointerTouch) (c : PointerTouch) :
    after (touches ++ [c]) = TouchCall.step (after touches) c.call := by
  simp [after, TouchCall.after_snoc]

theorem presses_of_holds {c : PointerTouch} (h : c.holds = true) : c.call.Presses := by
  obtain ⟨action, id, x, y, pressure⟩ := c
  cases action with
  | down => exact .inl rfl
  | move => exact .inr rfl
  | up => cases h
  | cancel => cases h

theorem lifts_of_not_holds {c : PointerTouch} (h : c.holds = false) : c.call.Lifts := by
  obtain ⟨action, id, x, y, pressure⟩ := c
  cases action with
  | down => cases h
  | move => cases h
  | up => exact .inl rfl
  | cancel => exact .inr rfl

theorem isDown_snoc {touches : List PointerTouch} {c : PointerTouch} {id : UInt8} :
    IsDown (touches ++ [c]) id ↔ if c.id = id then c.holds = true else IsDown touches id := by
  unfold IsDown
  rw [latch_snoc]
  split <;> rfl

theorem isDown_step (s : TouchSlots × Panel) (c : PointerTouch) (k : Fin 10) :
    (TouchCall.step s c.call).1.isDown k = if k = slotOf c.id then c.holds else s.1.isDown k := by
  obtain ⟨t, p⟩ := s
  cases hc : c.holds with
  | true =>
    rw [TouchCall.step_presses (presses_of_holds hc)]
    exact TouchSlots.isDown_set t (slotOf c.id) true k
  | false =>
    rw [TouchCall.step_lifts (lifts_of_not_holds hc)]
    exact TouchSlots.isDown_set t (slotOf c.id) false k

theorem contacts_step_of_ne (s : TouchSlots × Panel) (c : PointerTouch) {k : Fin 10} (hk : k ≠ slotOf c.id) :
    (TouchCall.step s c.call).2.contacts k = s.2.contacts k := by
  obtain ⟨t, p⟩ := s
  cases hc : c.holds with
  | true =>
    rw [TouchCall.step_presses (presses_of_holds hc)]
    exact Function.update_of_ne hk _ _
  | false =>
    rw [TouchCall.step_lifts (lifts_of_not_holds hc)]
    exact Function.update_of_ne hk _ _

/-- A touch puts the contact of its slot where it says, if it holds it. -/
theorem point_step (s : TouchSlots × Panel) (c : PointerTouch) :
    let k := (TouchCall.step s c.call).2.contacts (slotOf c.id)
    (k.x, k.y) = if c.holds then (c.x, c.y)
      else ((s.2.contacts (slotOf c.id)).x, (s.2.contacts (slotOf c.id)).y) := by
  obtain ⟨t, p⟩ := s
  cases hc : c.holds with
  | true =>
    rw [TouchCall.step_presses (presses_of_holds hc)]
    simp [TouchCall.pressed, TouchCall.slot, call]
  | false =>
    rw [TouchCall.step_lifts (lifts_of_not_holds hc)]
    simp [TouchCall.slot, call]

theorem sharedPoint_eq (touches : List PointerTouch) :
    sharedPoint touches = (((after touches).2.contacts 9).x, ((after touches).2.contacts 9).y) := by
  induction touches using List.reverseRecOn with
  | nil => rfl
  | append_singleton touches c ih =>
    rw [sharedPoint, latch_snoc, ← sharedPoint, after_snoc]
    by_cases hid : 9 ≤ c.id
    · have hpoint := point_step (after touches) c
      rw [slotOf_of_le hid] at hpoint
      rw [hpoint, ← ih]
      cases hc : c.holds with
      | true => simp [hid]
      | false => simp
    · have hne : 9 ≠ slotOf c.id := by
        intro heq
        have hslot : (slotOf c.id : Nat) = 9 := congrArg Fin.val heq.symm
        rw [UInt8.le_iff_toNat_le] at hid
        simp only [slotOf] at hslot
        exact hid (by simp only [UInt8.reduceToNat]; omega)
      rw [contacts_step_of_ne _ c hne, ← ih]
      simp [hid]

/-! ## Pointers on slots -/

/-- A slot is down as long as one of its pointers is. -/
def Faithful (touches : List PointerTouch) : Prop :=
  ∀ k, (after touches).1.isDown k = true ↔ ∃ id, slotOf id = k ∧ IsDown touches id

/-- Another pointer of the touch's slot is down. -/
def Shared (before : List PointerTouch) (c : PointerTouch) : Prop :=
  ∃ id, id ≠ c.id ∧ slotOf id = slotOf c.id ∧ IsDown before id

theorem shared_iff {before : List PointerTouch} {c : PointerTouch} :
    Shared before c ↔ 9 ≤ c.id ∧ ∃ id, id ≠ c.id ∧ 9 ≤ id ∧ IsDown before id := by
  constructor
  · rintro ⟨id, hne, hslot, hdown⟩
    obtain ⟨hid, hc⟩ := (slotOf_eq_iff hne).mp hslot
    exact ⟨hc, id, hne, hid, hdown⟩
  · rintro ⟨hc, id, hne, hid, hdown⟩
    exact ⟨id, hne, (slotOf_eq_iff hne).mpr ⟨hid, hc⟩, hdown⟩

theorem exists_isDown_snoc {before : List PointerTouch} {c : PointerTouch} :
    (∃ id, slotOf id = slotOf c.id ∧ IsDown (before ++ [c]) id) ↔ c.holds = true ∨ Shared before c := by
  constructor
  · rintro ⟨id, hslot, hdown⟩
    rw [isDown_snoc] at hdown
    split at hdown
    · exact .inl hdown
    · rename_i hne
      exact .inr ⟨id, fun heq => hne heq.symm, hslot, hdown⟩
  · rintro (hc | ⟨id, hne, hslot, hdown⟩)
    · exact ⟨c.id, rfl, isDown_snoc.mpr (by rw [if_pos rfl]; exact hc)⟩
    · exact ⟨id, hslot, isDown_snoc.mpr (by rw [if_neg hne.symm]; exact hdown)⟩

theorem Faithful.snoc {before : List PointerTouch} (h : Faithful before) {c : PointerTouch}
    (hc : Shared before c → c.holds = true) : Faithful (before ++ [c]) := by
  intro k
  rw [after_snoc, isDown_step]
  by_cases hk : k = slotOf c.id
  · rw [if_pos hk, hk, exists_isDown_snoc]
    exact ⟨.inl, fun hor => hor.elim (fun hholds => hholds) hc⟩
  · rw [if_neg hk, h k]
    refine exists_congr fun id => and_congr_right ?_
    intro hslot
    have hne : c.id ≠ id := fun heq => hk (heq ▸ hslot.symm)
    rw [isDown_snoc, if_neg hne]

theorem active_iff (touches : List PointerTouch) (k : Fin 10) :
    ((after touches).2.contacts k).Active ↔ (after touches).1.isDown k = true :=
  (TouchCall.shows_after (touches.map call)).active_iff k

theorem Faithful.button {touches : List PointerTouch} (h : Faithful touches) :
    (after touches).2.btnTouch = 1 ↔ ∃ id, IsDown touches id := by
  have hbutton : (after touches).2.btnTouch = (after touches).1.button :=
    (TouchCall.shows_after (touches.map call)).button
  rw [hbutton, TouchCall.button_eq_one]
  simp only [h _]
  constructor
  · rintro ⟨k, id, _, hid⟩
    exact ⟨id, hid⟩
  · rintro ⟨id, hid⟩
    exact ⟨slotOf id, id, rfl, hid⟩

/-- Where a slot is down as long as one of its pointers is, the other pointers are
kept by a touch that holds the contact where it is. -/
theorem kept_iff {before : List PointerTouch} (h : Faithful before) (c : PointerTouch) :
    (∀ id, id ≠ c.id → IsDown before id →
      Kept ((after before).2.contacts (slotOf id)) ((after (before ++ [c])).2.contacts (slotOf id))) ↔
      (Shared before c → c.holds = true ∧ (c.x, c.y) = sharedPoint before) := by
  have hpoint := point_step (after before) c
  constructor
  · rintro hkept ⟨id, hne, hslot, hdown⟩
    have hk := hkept id hne hdown
    have hactive := hk.active ((active_iff before _).mpr ((h _).mpr ⟨id, rfl, hdown⟩))
    rw [active_iff, after_snoc, isDown_step, if_pos hslot] at hactive
    refine ⟨hactive, ?_⟩
    rw [hactive, if_pos rfl, ← hslot] at hpoint
    rw [sharedPoint_eq, ← slotOf_of_le ((slotOf_eq_iff hne).mp hslot).1, ← hk.x, ← hk.y, ← hpoint, after_snoc]
  · intro hc id hne hdown
    by_cases hslot : slotOf id = slotOf c.id
    · obtain ⟨hholds, hsame⟩ := hc ⟨id, hne, hslot, hdown⟩
      rw [hholds, if_pos rfl, hsame, sharedPoint_eq,
        ← slotOf_of_le ((slotOf_eq_iff hne).mp hslot).1, ← hslot] at hpoint
      obtain ⟨hx, hy⟩ := Prod.mk.inj hpoint
      refine ⟨fun _ => ?_, by rw [after_snoc]; exact hx, by rw [after_snoc]; exact hy⟩
      rw [active_iff, after_snoc, isDown_step, if_pos hslot]
      exact hholds
    · rw [after_snoc, contacts_step_of_ne _ c hslot]
      exact ⟨fun hactive => hactive, rfl, rfl⟩

/-- Each touch leaves the pointers alone exactly where none of those that share a
slot meet but at one point. -/
theorem independent_iff (touches : List PointerTouch) : Independent touches ↔ Apart touches := by
  have hboth : (Apart touches → Faithful touches) ∧ (Independent touches ↔ Apart touches) := by
    induction touches using List.reverseRecOn with
    | nil =>
      refine ⟨fun _ k => ?_, iff_of_true (each_nil _) (each_nil _)⟩
      refine iff_of_false (by simp [after, TouchCall.after]) ?_
      rintro ⟨id, _, hdown⟩
      cases hdown
    | append_singleton before c ih =>
      obtain ⟨hfaithful, hiff⟩ := ih
      constructor
      · intro h
        obtain ⟨hbefore, hc⟩ := each_snoc.mp h
        refine (hfaithful hbefore).snoc ?_
        intro hshared
        obtain ⟨hid, hothers⟩ := shared_iff.mp hshared
        exact (hc hid hothers).1
      · rw [Independent, Apart, each_snoc, each_snoc, ← Independent, ← Apart, hiff]
        refine and_congr_right ?_
        intro hbefore
        have hf := hfaithful hbefore
        have hkept := kept_iff hf c
        simp only [shared_iff, and_imp] at hkept
        constructor
        · intro h
          exact hkept.mp h.kept
        · intro h
          refine ⟨(hf.snoc ?_).button, hkept.mpr h⟩
          intro hshared
          obtain ⟨hid, hothers⟩ := shared_iff.mp hshared
          exact (h hid hothers).1
  exact hboth.2

/-- The eleventh pointer comes up, and the contact of the tenth ends. -/
theorem pointers_meet : ¬ ∀ touches : List PointerTouch, Independent touches := by
  intro h
  have halone := h [⟨.down, 9, 100, 100, 1⟩, ⟨.down, 10, 100, 100, 1⟩, ⟨.up, 10, 100, 100, 0⟩]
    [⟨.down, 9, 100, 100, 1⟩, ⟨.down, 10, 100, 100, 1⟩] ⟨.up, 10, 100, 100, 0⟩ [] rfl
  have hactive := (halone.kept 9 (by decide) (by decide)).active (by decide +kernel)
  exact absurd hactive (by decide +kernel)

end PointerTouch
end DroidMirror.Server
