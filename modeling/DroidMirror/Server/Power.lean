import DroidMirror.Lib.Decimal
import DroidMirror.Lib.Run
import DroidMirror.Transport.Conversation
import Mathlib.Logic.Function.Basic

/-! # Keeping the screen on

`StayAwake` in `crates/server/src/android/power.rs`: what it does to the setting
`stay_on_while_plugged_in`. Each session of a server reads the setting, writes it
if the screen may go off, and writes back what it read when it ends; several can
run at a time, be killed at any point and have their commands fail. The setting
is never anything but what it was and that with the three bits set, and is what
it was again once all that changed it are over, if nothing failed
(`setting_restored`). The wake lock is left out. -/
namespace DroidMirror.Server
open DroidMirror.Lib.Decimal DroidMirror.Lib.Run DroidMirror.Lib.Trim
open DroidMirror.Transport (isWhitespace trimmed)

/-! ## The setting -/

/-- AC | USB | wireless. -/
def STAY_ON_PLUGGED : Int32 := 7

/-- `settings_get`: what `settings get` prints, trimmed. -/
def settingsGet (setting : Option String) : String := trimmed (setting.getD "null" ++ "\n")

/-- `raw.parse::<i32>()`, with a setting that is not there taken for zero. -/
def stayOnValue (raw : String) : Except String Int32 :=
  if raw = "null" ∨ raw.isEmpty then .ok 0
  else
    match parseSigned 32 raw.toList with
    | some v => .ok (.ofInt v)
    | none => .error ("unexpected stay_on value " ++ raw)

/-- `current | STAY_ON_PLUGGED`. -/
def kept (current : Int32) : Int32 := current ||| STAY_ON_PLUGGED

/-- What `settings_put` passes to `settings put`. -/
def spelled (v : Int32) : String := String.ofList (printed v.toInt)

/-- The value of the setting. -/
def valueOf (setting : Option String) : Option Int32 := (stayOnValue (settingsGet setting)).toOption

theorem trimmed_printed (v : Int) : Trimmed isWhitespace (printed v) := by
  have hdigit {c : Char} (h : c ∈ Nat.toDigits 10 v.natAbs) : isWhitespace c = false := by
    have hd := Nat.isDigit_of_mem_toDigits (by decide) (by decide) h
    rw [Char.isDigit_iff_toNat] at hd
    have hzero : '0'.toNat = 48 := rfl
    have hnine : '9'.toNat = 57 := rfl
    simp only [isWhitespace, decide_eq_false_iff_not]
    omega
  have hall : ∀ c ∈ printed v, isWhitespace c = false := by
    unfold printed
    split
    · exact List.forall_mem_cons.mpr ⟨by decide, fun c => hdigit⟩
    · exact fun c => hdigit
  have hne : printed v ≠ [] := by
    unfold printed
    split
    · exact List.cons_ne_nil _ _
    · exact Nat.toDigits_ne_nil
  exact ⟨hne, hall _ (List.head_mem hne), hall _ (List.getLast_mem hne)⟩

/-- What is written is read again. -/
theorem valueOf_spelled (v : Int32) : valueOf (some (spelled v)) = some v := by
  have hget : settingsGet (some (spelled v)) = spelled v := by
    have htrim := trim_around (a := []) (fun c hc => nomatch hc) (trimmed_printed v.toInt)
      (fun c hc => List.mem_singleton.mp hc ▸ (by decide : isWhitespace '\n' = true))
    rw [settingsGet, trimmed, Option.getD_some, String.toList_append, spelled, String.toList_ofList]
    exact congrArg String.ofList htrim
  have hparse : parseSigned 32 (spelled v).toList = some v.toInt := by
    rw [spelled, String.toList_ofList]
    exact parseSigned_printed (by decide) v.le_toInt v.toInt_lt
  have hword : ¬ (spelled v = "null" ∨ (spelled v).isEmpty = true) := by
    rintro (h | h)
    · rw [h] at hparse
      cases hparse
    · rw [String.isEmpty_iff] at h
      rw [h] at hparse
      cases hparse
  rw [valueOf, hget, stayOnValue, if_neg hword, hparse]
  exact congrArg some (Int32.ofInt_toInt v)

theorem kept_kept (v : Int32) : kept (kept v) = kept v := by
  unfold kept
  rw [Int32.or_assoc, Int32.or_self]

/-! ## Sessions -/

/-- How far a `StayAwake` is. -/
inductive Stay where
  | fresh
  /-- The setting was read, and is to be written. -/
  | read (current : Int32)
  | acquired (previous : Option Int32)
  /-- Released or killed. -/
  | over
  deriving DecidableEq

/-- `previous_stay_on`: what the session is to write back. -/
def Stay.previous : Stay → Option Int32
  | .acquired previous => previous
  | _ => none

/-- What becomes of a `settings put`. -/
inductive Put where
  | stored
  | refused
  /-- It is stored, and reported as failed. -/
  | unreported
  deriving DecidableEq

def Put.stores : Put → Bool
  | .stored | .unreported => true
  | .refused => false

inductive Act where
  /-- `settings_get` of a session; whether it succeeds. -/
  | get (i : Nat) (answered : Bool)
  | put (i : Nat) (outcome : Put)
  | release (i : Nat) (outcome : Put)
  | kill (i : Nat)
  deriving DecidableEq

def Act.session : Act → Nat
  | .get i _ | .put i _ | .release i _ | .kill i => i

structure Phone where
  setting : Option String
  stays : Nat → Stay

namespace Phone

def start (setting : Option String) : Phone := ⟨setting, fun _ => .fresh⟩

def advance (p : Phone) (i : Nat) (stay : Stay) : Phone := { p with stays := Function.update p.stays i stay }

def write (p : Phone) (v : Int32) (outcome : Put) : Phone :=
  { p with setting := if outcome.stores then some (spelled v) else p.setting }

/-- The half of `enable_stay_on_while_plugged` before the setting is written. -/
def read (p : Phone) : Stay :=
  match stayOnValue (settingsGet p.setting) with
  | .error _ => .acquired none
  | .ok current => if kept current = current then .acquired none else .read current

def step (p : Phone) : Act → Option Phone
  | .get i answered =>
    match p.stays i with
    | .fresh => some (p.advance i (if answered then p.read else .acquired none))
    | _ => none
  | .put i outcome =>
    match p.stays i with
    | .read current =>
      some ((p.write (kept current) outcome).advance i
        (.acquired (if outcome = .stored then some current else none)))
    | _ => none
  | .release i outcome =>
    match p.stays i with
    | .acquired none => some (p.advance i .over)
    | .acquired (some previous) => some ((p.write previous outcome).advance i .over)
    | _ => none
  | .kill i =>
    match p.stays i with
    | .over => none
    | _ => some (p.advance i .over)

/-! ## What a step can do -/

inductive Move (p : Phone) : Act → Phone → Prop
  | get {i : Nat} (answered : Bool) (hi : p.stays i = .fresh) :
    Move p (.get i answered) (p.advance i (if answered then p.read else .acquired none))
  | put {i : Nat} {current : Int32} (outcome : Put) (hi : p.stays i = .read current) :
    Move p (.put i outcome) ((p.write (kept current) outcome).advance i
      (.acquired (if outcome = .stored then some current else none)))
  | release {i : Nat} (outcome : Put) (hi : p.stays i = .acquired none) :
    Move p (.release i outcome) (p.advance i .over)
  | restore {i : Nat} {previous : Int32} (outcome : Put) (hi : p.stays i = .acquired (some previous)) :
    Move p (.release i outcome) ((p.write previous outcome).advance i .over)
  | kill {i : Nat} (hi : p.stays i ≠ .over) : Move p (.kill i) (p.advance i .over)

theorem step_move {p p' : Phone} {a : Act} (h : p.step a = some p') : Move p a p' := by
  cases a with
  | get i answered =>
    simp only [step] at h
    split at h
    · cases h
      exact .get answered ‹_›
    · cases h
  | put i outcome =>
    simp only [step] at h
    split at h
    · cases h
      exact .put outcome ‹_›
    · cases h
  | release i outcome =>
    simp only [step] at h
    split at h
    · cases h
      exact .release outcome ‹_›
    · cases h
      exact .restore outcome ‹_›
    · cases h
  | kill i =>
    simp only [step] at h
    split at h
    · cases h
    · rename_i hi
      cases h
      exact .kill hi

theorem advance_stays (p : Phone) (i : Nat) (stay : Stay) (j : Nat) :
    (p.advance i stay).stays j = if j = i then stay else p.stays j := Function.update_apply ..

/-- The setting after a write. -/
theorem write_setting (p : Phone) (v : Int32) (outcome : Put) :
    (outcome.stores = true ∧ (p.write v outcome).setting = some (spelled v)) ∨
      (outcome = .refused ∧ (p.write v outcome).setting = p.setting) := by
  cases outcome with
  | stored => exact .inl ⟨rfl, rfl⟩
  | unreported => exact .inl ⟨rfl, rfl⟩
  | refused => exact .inr ⟨rfl, rfl⟩

/-! ## A setting nobody changes -/

/-- The setting is not a number, or has the three bits. -/
def Settled (setting : Option String) : Prop := ∀ v, valueOf setting = some v → kept v = v

structure Untouched (setting : Option String) (p : Phone) : Prop where
  setting : p.setting = setting
  stays : ∀ i, p.stays i = .fresh ∨ p.stays i = .acquired none ∨ p.stays i = .over

theorem read_settled {p : Phone} (h : Settled p.setting) : p.read = .acquired none := by
  unfold read
  split
  · rfl
  · rename_i current hcurrent
    have hvalue : valueOf p.setting = some current := by rw [valueOf, hcurrent]; rfl
    rw [if_pos (h current hvalue)]

theorem untouched_step {setting : Option String} (hs : Settled setting) {p p' : Phone} {a : Act}
    (hi : Untouched setting p) (h : p.step a = some p') : Untouched setting p' := by
  have hadvance (i : Nat) {stay : Stay} (hstay : stay = .fresh ∨ stay = .acquired none ∨ stay = .over) :
      Untouched setting (p.advance i stay) := by
    refine ⟨hi.setting, fun j => ?_⟩
    rw [advance_stays]
    split
    · exact hstay
    · exact hi.stays j
  cases step_move h with
  | @get i answered hfresh =>
    rw [read_settled (hi.setting ▸ hs), ite_self]
    exact hadvance i (.inr (.inl rfl))
  | @put i current outcome hread =>
    have hstay := hi.stays i
    simp [hread] at hstay
  | release outcome hacquired => exact hadvance _ (.inr (.inr rfl))
  | @restore i previous outcome hacquired =>
    have hstay := hi.stays i
    simp [hacquired] at hstay
  | kill hlive => exact hadvance _ (.inr (.inr rfl))

/-! ## A setting that is changed -/

/-- The setting has the value `v` or the one with the bits set, and what the sessions keep of it is `v`. -/
structure Held (v : Int32) (p : Phone) : Prop where
  setting : valueOf p.setting = some v ∨ valueOf p.setting = some (kept v)
  read : ∀ i current, p.stays i = .read current → current = v
  previous : ∀ i, ∀ previous ∈ (p.stays i).previous, previous = v

/-- A session that wrote the setting is to write it back. -/
def Owed (p : Phone) : Prop := ∃ i, (p.stays i).previous ≠ none

/-- Nothing fails that leaves the setting changed with nobody to restore it: a
write that is reported as failed was not made, one that restores is made, and
who is to restore is not killed. -/
def Unfailing (p : Phone) : Act → Prop
  | .get .. => True
  | .put _ outcome => outcome ≠ .unreported
  | .release i outcome => (p.stays i).previous = none ∨ outcome ≠ .refused
  | .kill i => (p.stays i).previous = none

instance (p : Phone) : DecidablePred (Unfailing p)
  | .get .. => inferInstanceAs (Decidable True)
  | .put _ outcome => inferInstanceAs (Decidable (outcome ≠ .unreported))
  | .release i outcome => inferInstanceAs (Decidable ((p.stays i).previous = none ∨ outcome ≠ .refused))
  | .kill i => inferInstanceAs (Decidable ((p.stays i).previous = none))

section
variable {v : Int32} {p p' : Phone}

theorem Held.advance (h : Held v p) (i : Nat) {stay : Stay}
    (hread : ∀ current, stay = .read current → current = v)
    (hprevious : ∀ previous ∈ stay.previous, previous = v) : Held v (p.advance i stay) := by
  refine ⟨h.setting, fun j current hj => ?_, fun j previous hj => ?_⟩
  · rw [advance_stays] at hj
    split at hj
    · exact hread current hj
    · exact h.read j current hj
  · rw [advance_stays] at hj
    split at hj
    · exact hprevious previous hj
    · exact h.previous j previous hj

theorem Held.write (h : Held v p) {w : Int32} (hw : w = v ∨ w = kept v) (outcome : Put) :
    Held v (p.write w outcome) := by
  refine ⟨?_, h.read, h.previous⟩
  rcases p.write_setting w outcome with ⟨-, hsetting⟩ | ⟨-, hsetting⟩
  · rw [hsetting, valueOf_spelled]
    exact hw.imp (congrArg some) (congrArg some)
  · rw [hsetting]
    exact h.setting

theorem read_held (h : Held v p) : p.read = .acquired none ∨ p.read = .read v := by
  unfold read
  split
  · exact .inl rfl
  · rename_i current hcurrent
    split
    · exact .inl rfl
    · rename_i hkept
      have hvalue : valueOf p.setting = some current := by rw [valueOf, hcurrent]; rfl
      refine .inr ?_
      rcases h.setting with hv | hv
      · rw [Option.some.inj (hvalue.symm.trans hv)]
      · rw [Option.some.inj (hvalue.symm.trans hv)] at hkept
        exact absurd (kept_kept v) hkept

theorem held_step {a : Act} (hi : Held v p) (h : p.step a = some p') : Held v p' := by
  cases step_move h with
  | get answered hfresh =>
    split
    · rcases read_held hi with hread | hread
      · rw [hread]
        exact hi.advance _ (fun _ h => nomatch h) fun _ h => nomatch h
      · rw [hread]
        exact hi.advance _ (fun _ h => (Stay.read.inj h).symm) fun _ h => nomatch h
    · exact hi.advance _ (fun _ h => nomatch h) fun _ h => nomatch h
  | @put i current outcome hread =>
    obtain rfl := hi.read i current hread
    refine (hi.write (.inr rfl) outcome).advance i (fun _ h => nomatch h) fun previous h => ?_
    split at h
    · exact (Option.some.inj h).symm
    · cases h
  | release outcome hacquired => exact hi.advance _ (fun _ h => nomatch h) fun _ h => nomatch h
  | @restore i previous outcome hacquired =>
    obtain rfl := hi.previous i previous (congrArg Stay.previous hacquired)
    exact (hi.write (.inl rfl) outcome).advance i (fun _ h => nomatch h) fun _ h => nomatch h
  | kill hlive => exact hi.advance _ (fun _ h => nomatch h) fun _ h => nomatch h

/-- Whoever is to write the setting back still is, unless it is his turn. -/
theorem Owed.advance (h : Owed p) {i : Nat} (hi : (p.stays i).previous = none) (stay : Stay) :
    Owed (p.advance i stay) := by
  obtain ⟨j, hj⟩ := h
  refine ⟨j, ?_⟩
  rw [advance_stays, if_neg]
  · exact hj
  · rintro rfl
    exact hj hi

/-- With the bits set there is somebody to write the setting back. -/
theorem owed_step {a : Act} (hi : Held v p) (ho : valueOf p.setting = some v ∨ Owed p) (hok : Unfailing p a)
    (h : p.step a = some p') : valueOf p'.setting = some v ∨ Owed p' := by
  cases step_move h with
  | get answered hfresh => exact ho.imp_right fun ho => ho.advance (congrArg Stay.previous hfresh) _
  | @put i current outcome hread =>
    obtain rfl := hi.read i current hread
    cases outcome with
    | stored => exact .inr ⟨i, by rw [advance_stays, if_pos rfl]; exact Option.some_ne_none _⟩
    | refused => exact ho.imp_right fun ho => ho.advance (congrArg Stay.previous hread) _
    | unreported => exact absurd rfl hok
  | release outcome hacquired => exact ho.imp_right fun ho => ho.advance (congrArg Stay.previous hacquired) _
  | @restore i previous outcome hacquired =>
    obtain rfl := hi.previous i previous (congrArg Stay.previous hacquired)
    rcases p.write_setting previous outcome with ⟨-, hsetting⟩ | ⟨hrefused, -⟩
    · exact .inl ((congrArg valueOf hsetting).trans (valueOf_spelled previous))
    · exact absurd hrefused (hok.resolve_left (by simp [hacquired, Stay.previous]))
  | kill hlive => exact ho.imp_right fun ho => ho.advance hok _

end

/-- **The setting.** However many sessions run and overlap, and whatever fails or
is killed: a setting that is no number or has the bits already is never written;
any other has its value or that with the bits set, and has its own again once
nobody is left to write it back, if nothing failed. -/
theorem setting_restored {setting : Option String} {acts : List Act} {p : Phone}
    (h : run step (start setting) acts = some p) :
    (Settled setting → p.setting = setting) ∧ ∀ v, valueOf setting = some v →
      (valueOf p.setting = some v ∨ valueOf p.setting = some (kept v)) ∧
        (Meets step Unfailing (start setting) acts → (∀ i, (p.stays i).previous = none) →
          valueOf p.setting = some v) := by
  constructor
  · intro hs
    exact (run_preserves (fun _ _ _ hi hstep => untouched_step hs hi hstep) h ⟨rfl, fun _ => .inl rfl⟩).setting
  · intro v hv
    have hstart : Held v (start setting) := ⟨.inl hv, (fun _ _ h => nomatch h), fun _ _ h => nomatch h⟩
    refine ⟨(run_preserves (fun _ _ _ hi hstep => held_step hi hstep) h hstart).setting, fun hok hnone => ?_⟩
    have hstep : ∀ p a p', (Held v p ∧ (valueOf p.setting = some v ∨ Owed p)) → Unfailing p a →
        p.step a = some p' → Held v p' ∧ (valueOf p'.setting = some v ∨ Owed p') :=
      fun p a p' hi hok hs => ⟨held_step hi.1 hs, owed_step hi.1 hi.2 hok hs⟩
    have hboth := run_invariant hstep h hok ⟨hstart, .inl hv⟩
    refine hboth.2.resolve_right ?_
    rintro ⟨i, hi⟩
    exact hi (hnone i)

/-- A session is as it was where it is not its turn. -/
theorem stays_other {i : Nat} {stay : Stay} {p p' : Phone} {a : Act} (hi : p.stays i = stay) (ha : a.session ≠ i)
    (h : p.step a = some p') : p'.stays i = stay := by
  cases step_move h <;> exact (advance_stays ..).trans ((if_neg (Ne.symm ha)).trans hi)

/-- Two sessions overlap: the first restores the setting while the second still runs. -/
def overlap : List Act :=
  [.get 0 true, .put 0 .stored, .get 1 true, .release 0 .stored, .release 1 .stored]

theorem setting_restored_overlap : ∃ p, run step (start none) overlap = some p ∧ valueOf p.setting = some 0 := by
  have hover : (run step (start none) overlap).any (fun p => p.stays 0 = .over ∧ p.stays 1 = .over) = true := by
    decide +kernel
  obtain ⟨p, hp, hboth⟩ := (Option.any_eq_true ..).mp hover
  have hnone : ∀ i, (p.stays i).previous = none
    | 0 => congrArg Stay.previous (of_decide_eq_true hboth).1
    | 1 => congrArg Stay.previous (of_decide_eq_true hboth).2
    | i + 2 => by
      have hother : ∀ a ∈ overlap, a.session ≠ i + 2 := by simp [overlap, Act.session]
      have hmeets : Meets step (fun _ a => a.session ≠ i + 2) (start none) overlap := by
        refine meets_iff.mpr fun before a after p hsplit _ => hother a ?_
        rw [hsplit]
        exact List.mem_append_right _ List.mem_cons_self
      have hfresh : p.stays (i + 2) = .fresh :=
        run_invariant (fun _ _ _ hi ha hstep => stays_other hi ha hstep) hp hmeets rfl
      exact congrArg Stay.previous hfresh
  exact ⟨p, hp, ((setting_restored hp).2 0 (by decide +kernel)).2 (by decide +kernel) hnone⟩

end Phone

end DroidMirror.Server
