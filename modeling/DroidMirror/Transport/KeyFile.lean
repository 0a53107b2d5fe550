import Mathlib.Logic.Function.Basic
import DroidMirror.Transport.Auth

/-! # The key that is kept

`loadOrCreateKey` takes the user's own key if it has 2048 bits, else the one in
`~/.droidmirror`, else a new one, which it writes there. A device asks once for
each key it does not know, so that what counts is that later calls come back to
the key of the first: they do exactly where it was loaded or can be read back
from what was written (`keys_stable_iff`). -/
namespace DroidMirror.Transport

/-! ## Loading and creating -/

/-- What other crates make of keys: `from_pem` and `private_key_pem`, and the modulus. -/
structure KeyFormat (κ : Type) where
  fromPem : String → Option κ
  privateKeyPem : κ → Except AdbError String
  modulus : κ → Nat

/-- The texts that can be read, by the components of their paths. -/
abbrev Files := List String → Option String

/-- What one call meets: the new key, should it come to that, and what can be read from a
file after a text was written to it, well or badly. -/
structure KeyCall (κ : Type) where
  generated : Except AdbError κ
  written : String → Option String

section
variable {κ : Type} (format : KeyFormat κ)

def is2048 (key : κ) : Bool := (toBytesLE (format.modulus key)).length = modulusBytes

def tryLoad (files : Files) (path : List String) : Option κ := (files path).bind format.fromPem

def androidKey (home : String) : List String := [home, ".android", "adbkey"]
def ourKey (home : String) : List String := [home, ".droidmirror", "adbkey"]

def loadOrCreateKey (home : Option String) (call : KeyCall κ) (files : Files) :
    Except AdbError κ × Files :=
  match home with
  | none => (call.generated, files)
  | some home =>
    match (tryLoad format files (androidKey home)).filter (is2048 format) with
    | some key => (.ok key, files)
    | none =>
      match tryLoad format files (ourKey home) with
      | some key => (.ok key, files)
      | none =>
        match call.generated with
        | .error e => (.error e, files)
        | .ok key =>
          match format.privateKeyPem key with
          | .ok pem => (.ok key, Function.update files (ourKey home) (call.written pem))
          | .error _ => (.ok key, files)

/-- The keys of calls one after another. -/
def keysOf (home : Option String) : List (KeyCall κ) → Files → List (Except AdbError κ)
  | [], _ => []
  | call :: calls, files =>
    (loadOrCreateKey format home call files).1 :: keysOf home calls (loadOrCreateKey format home call files).2

/-! ## Coming back to a key -/

/-- The key a call finds, if it finds one. -/
def foundKey (home : String) (files : Files) : Option κ :=
  ((tryLoad format files (androidKey home)).filter (is2048 format)).or
    (tryLoad format files (ourKey home))

/-- The key was found, or can be read back from what was written. -/
def Remembered (home : Option String) (call : KeyCall κ) (files : Files) (key : κ) : Prop :=
  ∃ dir, home = some dir ∧ (foundKey format dir files = some key ∨
    foundKey format dir files = none ∧ ∃ pem, format.privateKeyPem key = .ok pem ∧
      (call.written pem).bind format.fromPem = some key)

variable {format}

theorem androidKey_ne_ourKey (home : String) : androidKey home ≠ ourKey home := by
  intro h
  have hdir := (List.cons.inj (List.cons.inj h).2).1
  revert hdir
  decide

/-- What a call finds it returns, and leaves the files alone. -/
theorem loadOrCreateKey_found {home : String} {files : Files} {key : κ}
    (h : foundKey format home files = some key) (call : KeyCall κ) :
    loadOrCreateKey format (some home) call files = (.ok key, files) := by
  unfold foundKey at h
  unfold loadOrCreateKey
  cases ha : (tryLoad format files (androidKey home)).filter (is2048 format) with
  | some android =>
    rw [ha, Option.some_or] at h
    simp only [ha, Option.some.inj h]
  | none =>
    rw [ha, Option.none_or] at h
    simp only [ha, h]

theorem keysOf_found {home : String} {files : Files} {key : κ} (h : foundKey format home files = some key)
    (calls : List (KeyCall κ)) : ∀ r ∈ keysOf format (some home) calls files, r = .ok key := by
  induction calls with
  | nil => exact fun r hr => nomatch hr
  | cons call calls ih =>
    rw [keysOf, loadOrCreateKey_found h call]
    exact List.forall_mem_cons.mpr ⟨rfl, ih⟩

/-- A call that finds none returns the new key, and writes it if it has a text. -/
theorem loadOrCreateKey_none {home : String} {files : Files} (h : foundKey format home files = none)
    (call : KeyCall κ) : loadOrCreateKey format (some home) call files =
      match call.generated with
      | .error e => (.error e, files)
      | .ok key =>
        match format.privateKeyPem key with
        | .ok pem => (.ok key, Function.update files (ourKey home) (call.written pem))
        | .error _ => (.ok key, files) := by
  unfold foundKey at h
  obtain ⟨ha, ho⟩ := Option.or_eq_none_iff.mp h
  unfold loadOrCreateKey
  simp only [ha, ho]

/-- Writing the key makes it the one to be found, if it can be read back. -/
theorem foundKey_written {home : String} {files : Files} (h : foundKey format home files = none)
    (text : Option String) : foundKey format home (Function.update files (ourKey home) text) =
      text.bind format.fromPem := by
  obtain ⟨ha, -⟩ := Option.or_eq_none_iff.mp h
  have hother : Function.update files (ourKey home) text (androidKey home) = files (androidKey home) :=
    Function.update_of_ne (androidKey_ne_ourKey home) ..
  have hours : Function.update files (ourKey home) text (ourKey home) = text := Function.update_self ..
  unfold foundKey tryLoad at *
  rw [hother, ha, hours, Option.none_or]

theorem keysOf_failing {home : Option String} {files : Files} {key : κ}
    (h : ∀ dir, home = some dir → foundKey format dir files ≠ some key) :
    ∃ calls, ∃ r ∈ keysOf format home calls files, r ≠ .ok key := by
  refine ⟨[⟨.error .closed, fun _ => none⟩], _, List.mem_cons_self, ?_⟩
  cases home with
  | none => exact fun heq => nomatch heq
  | some dir =>
    cases hf : foundKey format dir files with
    | some found =>
      rw [loadOrCreateKey_found hf]
      rintro heq
      exact h dir rfl (hf.trans (congrArg some (Except.ok.inj heq)))
    | none =>
      rw [loadOrCreateKey_none hf]
      exact fun heq => nomatch heq

/-- Every later call comes back to the key of the first exactly where that key was found, or
can be read back from what was written for it. -/
theorem keys_stable_iff {home : Option String} {call : KeyCall κ} {files files' : Files} {key : κ}
    (h : loadOrCreateKey format home call files = (.ok key, files')) :
    (∀ later, ∀ r ∈ keysOf format home later files', r = .ok key) ↔
      Remembered format home call files key := by
  have hiff : (∀ later, ∀ r ∈ keysOf format home later files', r = .ok key) ↔
      ∃ dir, home = some dir ∧ foundKey format dir files' = some key := by
    constructor
    · intro hall
      by_contra hnot
      obtain ⟨calls, r, hr, hne⟩ := keysOf_failing
        fun dir hdir (hfound : foundKey format dir files' = some key) => hnot ⟨dir, hdir, hfound⟩
      exact hne (hall calls r hr)
    · rintro ⟨dir, rfl, hfound⟩ later
      exact keysOf_found hfound later
  rw [hiff]
  unfold Remembered
  refine exists_congr fun dir => and_congr_right ?_
  rintro rfl
  cases hf : foundKey format dir files with
  | some found =>
    rw [loadOrCreateKey_found hf] at h
    obtain ⟨hkey, rfl⟩ := Prod.mk.inj h
    rw [hf, Except.ok.inj hkey]
    simp
  | none =>
    rw [loadOrCreateKey_none hf] at h
    simp only [reduceCtorEq, true_and, false_or]
    cases hg : call.generated with
    | error e =>
      rw [hg] at h
      cases h
    | ok new =>
      rw [hg] at h
      cases hp : format.privateKeyPem new with
      | ok pem =>
        simp only [hp, Prod.mk.injEq, Except.ok.injEq] at h
        obtain ⟨rfl, rfl⟩ := h
        rw [foundKey_written hf, hp]
        simp
      | error e =>
        simp only [hp, Prod.mk.injEq, Except.ok.injEq] at h
        obtain ⟨rfl, rfl⟩ := h
        rw [hf, hp]
        simp

end

/-- A new key that is written well. -/
theorem keys_stable_new :
    let format : KeyFormat Nat := ⟨fun pem => if pem = "7" then some 7 else none, fun _ => .ok "7", id⟩
    ∀ later, ∀ r ∈ keysOf format (some "home") later
      (loadOrCreateKey format (some "home") ⟨.ok 7, some⟩ fun _ => none).2, r = .ok 7 := by
  intro format
  have hcall : loadOrCreateKey format (some "home") ⟨.ok 7, some⟩ (fun _ => none) =
      (.ok 7, Function.update (fun _ => none) (ourKey "home") (some "7")) := rfl
  exact (keys_stable_iff hcall).mpr ⟨"home", rfl, .inr ⟨rfl, "7", rfl, rfl⟩⟩

end DroidMirror.Transport
