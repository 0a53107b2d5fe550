import Mathlib.Data.List.Basic

/-! # Incremental decoding of a stream

A decoder looks at the front of a buffer and says one of three things: an item
and how many units it took, that more input is needed, or that the input is
bad. A `Grammar` adds a phase that chooses the decoder and the law that what was
said of a buffer is not taken back when input is appended, except that "more
is needed" may become anything. The law makes reading independent of how the
input was cut (`parse_append`). -/
namespace DroidMirror.Lib.Incremental

/-- A phase-dependent decoder whose answers survive further input. -/
structure Grammar (φ β ε μ : Type) where
  decode : φ → List β → Except ε (Option (μ × Nat))
  next : φ → μ → φ
  takes : ∀ {p b m n}, decode p b = .ok (some (m, n)) → 0 < n ∧ n ≤ b.length
  stable : ∀ {p b} (s : List β), decode p b ≠ .ok none → decode p (b ++ s) = decode p b

/-- What a whole buffer reads as: the items in front, the phase and the
undecoded units they leave, and the error that stopped the reading. -/
structure Parse (φ β ε μ : Type) where
  items : List μ
  phase : φ
  rest : List β
  err : Option ε

namespace Parse
variable {φ β ε μ : Type}

/-- One more item in front. -/
def cons (m : μ) (r : Parse φ β ε μ) : Parse φ β ε μ := { r with items := m :: r.items }

/-- The items of an earlier reading in front. -/
def after (items : List μ) (r : Parse φ β ε μ) : Parse φ β ε μ :=
  { r with items := items ++ r.items }

theorem of_cons {m : μ} {r r' : Parse φ β ε μ} (h : cons m r = cons m r') : r = r' := by
  obtain ⟨items, phase, rest, err⟩ := r
  obtain ⟨items', phase', rest', err'⟩ := r'
  simp only [cons, Parse.mk.injEq, List.cons.injEq, true_and] at h ⊢
  exact h

@[simp] theorem after_nil (r : Parse φ β ε μ) : after [] r = r := rfl
@[simp] theorem cons_after (m : μ) (ms : List μ) (r : Parse φ β ε μ) :
    cons m (after ms r) = after (m :: ms) r := rfl
@[simp] theorem cons_items (m : μ) (r : Parse φ β ε μ) : (cons m r).items = m :: r.items := rfl
@[simp] theorem cons_rest (m : μ) (r : Parse φ β ε μ) : (cons m r).rest = r.rest := rfl
@[simp] theorem cons_err (m : μ) (r : Parse φ β ε μ) : (cons m r).err = r.err := rfl

end Parse

namespace Grammar
variable {φ β ε μ : Type} (G : Grammar φ β ε μ)

theorem some_append {p : φ} {b : List β} {m : μ} {n : Nat} (s : List β)
    (h : G.decode p b = .ok (some (m, n))) : G.decode p (b ++ s) = .ok (some (m, n)) :=
  (G.stable s (by simp [h])).trans h

theorem error_append {p : φ} {b : List β} {e : ε} (s : List β) (h : G.decode p b = .error e) :
    G.decode p (b ++ s) = .error e :=
  (G.stable s (by simp [h])).trans h

def parseFuel : Nat → φ → List β → Parse φ β ε μ
  | 0, p, b => ⟨[], p, b, none⟩
  | fuel + 1, p, b =>
    match G.decode p b with
    | .ok none => ⟨[], p, b, none⟩
    | .ok (some (m, n)) => (parseFuel fuel (G.next p m) (b.drop n)).cons m
    | .error e => ⟨[], p, b, some e⟩

/-- Decode from the front until the decoder wants more or rejects. Every item
takes at least one unit, so the fuel is never what ends the reading
(`parseFuel_eq`). -/
def parse (p : φ) (b : List β) : Parse φ β ε μ := G.parseFuel (b.length + 1) p b

theorem parseFuel_succ (fuel : Nat) : ∀ (p : φ) (b : List β), b.length < fuel →
    G.parseFuel (fuel + 1) p b = G.parseFuel fuel p b := by
  induction fuel with
  | zero => intro p b h; omega
  | succ fuel ih =>
    intro p b h
    rw [parseFuel, parseFuel]
    split
    · rfl
    · rename_i m n hd
      obtain ⟨hpos, hle⟩ := G.takes hd
      rw [ih (G.next p m) (b.drop n) (by simp; omega)]
    · rfl

theorem parseFuel_eq {fuel : Nat} (p : φ) (b : List β) (h : b.length < fuel) :
    G.parseFuel fuel p b = G.parse p b := by
  induction h with
  | refl => rfl
  | step hle ih => rw [G.parseFuel_succ _ p b hle, ih]

/-! ## One decoding step -/

theorem parse_none {p : φ} {b : List β} (h : G.decode p b = .ok none) :
    G.parse p b = ⟨[], p, b, none⟩ := by
  rw [parse, parseFuel, h]

theorem parse_error {p : φ} {b : List β} {e : ε} (h : G.decode p b = .error e) :
    G.parse p b = ⟨[], p, b, some e⟩ := by
  rw [parse, parseFuel, h]

theorem parse_some {p : φ} {b : List β} {m : μ} {n : Nat} (h : G.decode p b = .ok (some (m, n))) :
    G.parse p b = (G.parse (G.next p m) (b.drop n)).cons m := by
  obtain ⟨hpos, hle⟩ := G.takes h
  rw [parse, parseFuel, h]
  simp only
  rw [G.parseFuel_eq _ _ (by simp; omega)]

/-- Induction along the reading of a buffer: it wants more, it is bad, or it
gives an item and what follows is read. -/
theorem parse_induction {C : φ → List β → Prop}
    (none : ∀ p b, G.decode p b = .ok none → C p b)
    (error : ∀ p b e, G.decode p b = .error e → C p b)
    (some : ∀ p b m n, G.decode p b = .ok (some (m, n)) → C (G.next p m) (b.drop n) → C p b) :
    ∀ p b, C p b := by
  intro p b
  induction hk : b.length using Nat.strongRecOn generalizing p b with
  | _ k ih =>
    cases hd : G.decode p b with
    | error e => exact error p b e hd
    | ok o =>
      match o, hd with
      | .none, hd => exact none p b hd
      | .some (m, n), hd =>
        obtain ⟨hpos, hle⟩ := G.takes hd
        exact some p b m n hd (ih (b.drop n).length (by simp; omega) _ _ rfl)

/-! ## Cutting the input -/

/-- A reading that did not fail stopped where the decoder wants more. -/
theorem decode_rest {p : φ} {b : List β} (he : (G.parse p b).err = none) :
    G.decode (G.parse p b).phase (G.parse p b).rest = .ok none := by
  induction p, b using G.parse_induction with
  | none p b h => rw [G.parse_none h]; exact h
  | error p b e h => rw [G.parse_error h] at he; cases he
  | some p b m n h ih =>
    rw [G.parse_some h] at he ⊢
    exact ih he

/-- Input read in two parts reads as the whole: the second part continues from
the undecoded end of the first. -/
theorem parse_append {p : φ} {b : List β} (s : List β) (he : (G.parse p b).err = none) :
    G.parse p (b ++ s) =
      (G.parse (G.parse p b).phase ((G.parse p b).rest ++ s)).after (G.parse p b).items := by
  induction p, b using G.parse_induction with
  | none p b h => rw [G.parse_none h]; rfl
  | error p b e h => rw [G.parse_error h] at he; cases he
  | some p b m n h ih =>
    rw [G.parse_some h] at he
    obtain ⟨hpos, hle⟩ := G.takes h
    rw [G.parse_some (G.some_append s h), List.drop_append_of_le_length hle, ih he, G.parse_some h]
    rfl

/-- Nothing appended after bad input changes what was read before it. -/
theorem parse_append_error {p : φ} {b : List β} (s : List β) {e : ε}
    (he : (G.parse p b).err = some e) :
    (G.parse p (b ++ s)).err = some e ∧ (G.parse p (b ++ s)).items = (G.parse p b).items := by
  induction p, b using G.parse_induction with
  | none p b h => rw [G.parse_none h] at he; cases he
  | error p b e' h =>
    rw [G.parse_error (G.error_append s h)]
    rw [G.parse_error h] at he ⊢
    exact ⟨he, rfl⟩
  | some p b m n h ih =>
    rw [G.parse_some h] at he
    obtain ⟨hpos, hle⟩ := G.takes h
    obtain ⟨herr, hitems⟩ := ih he
    rw [G.parse_some (G.some_append s h), List.drop_append_of_le_length hle, G.parse_some h]
    exact ⟨herr, congrArg (m :: ·) hitems⟩

/-! ## Item boundaries -/

/-- The offsets of `b` at which an item starts, or the reading stops. -/
inductive Boundary (p : φ) (b : List β) : φ → Nat → Prop
  | start : Boundary p b p 0
  | step {q : φ} {k : Nat} {m : μ} {n : Nat} : Boundary p b q k →
      G.decode q (b.drop k) = .ok (some (m, n)) → Boundary p b (G.next q m) (k + n)

theorem boundary_after {p : φ} {b : List β} {m : μ} {n : Nat} (h : G.decode p b = .ok (some (m, n)))
    {q : φ} {k : Nat} (hk : G.Boundary (G.next p m) (b.drop n) q k) : G.Boundary p b q (n + k) := by
  induction hk with
  | start =>
    have hstep := Boundary.step (G := G) (b := b) (.start (p := p)) h
    rwa [Nat.zero_add] at hstep
  | step _ hd ih =>
    rw [List.drop_drop] at hd
    have hstep := Boundary.step ih hd
    rwa [Nat.add_assoc] at hstep

/-- What is left undecoded is an end part of the buffer. -/
theorem rest_eq_drop (p : φ) (b : List β) : ∃ k, k ≤ b.length ∧ (G.parse p b).rest = b.drop k := by
  induction p, b using G.parse_induction with
  | none p b hd => rw [G.parse_none hd]; exact ⟨0, Nat.zero_le _, rfl⟩
  | error p b e hd => rw [G.parse_error hd]; exact ⟨0, Nat.zero_le _, rfl⟩
  | some p b m n hd ih =>
    obtain ⟨k, hk, hrest⟩ := ih
    obtain ⟨_, hle⟩ := G.takes hd
    rw [List.length_drop] at hk
    refine ⟨n + k, by omega, ?_⟩
    rw [G.parse_some hd, ← List.drop_drop]
    exact hrest

/-- Every item read was decoded at a boundary. -/
theorem decode_of_mem_items {p : φ} {b : List β} {m : μ} (h : m ∈ (G.parse p b).items) :
    ∃ q k n, G.Boundary p b q k ∧ G.decode q (b.drop k) = .ok (some (m, n)) := by
  induction p, b using G.parse_induction with
  | none p b hd => rw [G.parse_none hd] at h; cases h
  | error p b e hd => rw [G.parse_error hd] at h; cases h
  | some p b m' n hd ih =>
    rw [G.parse_some hd] at h
    rcases List.mem_cons.mp h with rfl | h
    · exact ⟨p, 0, n, .start, hd⟩
    · obtain ⟨q, k, n', hk, hd'⟩ := ih h
      rw [List.drop_drop] at hd'
      exact ⟨q, n + k, n', G.boundary_after hd hk, hd'⟩

/-! ## What is held back -/

/-- Read from phase `p`, `b` gives the items `is` and leaves the phase `q` and the units `r`. -/
inductive Reads : φ → List β → List μ → φ → List β → Prop
  | nil (p : φ) (b : List β) : Reads p b [] p b
  | cons {p : φ} {b : List β} {m : μ} {n : Nat} {is : List μ} {q : φ} {r : List β} :
      G.decode p b = .ok (some (m, n)) → Reads (G.next p m) (b.drop n) is q r → Reads p b (m :: is) q r

theorem parse_reads (p : φ) (b : List β) :
    G.Reads p b (G.parse p b).items (G.parse p b).phase (G.parse p b).rest := by
  induction p, b using G.parse_induction with
  | none p b hd => rw [G.parse_none hd]; exact .nil p b
  | error p b e hd => rw [G.parse_error hd]; exact .nil p b
  | some p b m n hd ih => rw [G.parse_some hd]; exact .cons hd ih

/-- No front part of a buffer on which the decoder waits holds an item. -/
theorem waits_front {p : φ} {b s : List β} (h : G.decode p b = .ok none) (hs : s <+: b) :
    G.decode p s = .ok none := by
  obtain ⟨t, rfl⟩ := hs
  by_contra hd
  exact hd ((G.stable t hd).symm.trans h)

/-- The units `r` are held back of `b`: they are what its items leave, and no item stands whole
in front of them. -/
structure Holds (p : φ) (b : List β) (is : List μ) (q : φ) (r : List β) : Prop where
  reads : G.Reads p b is q r
  waits : ∀ s, s <+: r → G.decode q s = .ok none

theorem holds_nil {p : φ} (h : G.decode p [] = .ok none) : G.Holds p [] [] p [] :=
  ⟨.nil p [], fun _ => G.waits_front h⟩

section Reads
variable {G}

theorem Reads.suffix {p q : φ} {b r : List β} {is : List μ} (h : G.Reads p b is q r) : r <:+ b := by
  induction h with
  | nil p b => exact List.suffix_rfl
  | cons _ _ ih => exact ih.trans (List.drop_suffix _ _)

/-- What is appended to the units read stands behind those left. -/
theorem Reads.append {p q : φ} {b r : List β} {is : List μ} (h : G.Reads p b is q r) (s : List β) :
    G.Reads p (b ++ s) is q (r ++ s) := by
  induction h with
  | nil p b => exact .nil p (b ++ s)
  | cons hd _ ih =>
    refine .cons (G.some_append s hd) ?_
    rwa [List.drop_append_of_le_length (G.takes hd).2]

theorem Reads.trans {p q q' : φ} {b r r' : List β} {is is' : List μ} (h : G.Reads p b is q r)
    (h' : G.Reads q r is' q' r') : G.Reads p b (is ++ is') q' r' := by
  induction h with
  | nil p b => exact h'
  | cons hd _ ih => exact .cons hd (ih h')

theorem Holds.decode {p q : φ} {b r : List β} {is : List μ} (h : G.Holds p b is q r) :
    G.decode q r = .ok none :=
  h.waits r List.prefix_rfl

/-- Units appended to those held back are read on from there. -/
theorem Holds.parse {p q : φ} {b r : List β} {is : List μ} (h : G.Holds p b is q r) {s : List β}
    (he : (G.parse q (r ++ s)).err = none) :
    G.Holds p (b ++ s) (is ++ (G.parse q (r ++ s)).items) (G.parse q (r ++ s)).phase
      (G.parse q (r ++ s)).rest :=
  ⟨(h.reads.append s).trans (G.parse_reads q (r ++ s)), fun _ => G.waits_front (G.decode_rest he)⟩

end Reads

/-! ## Streams written by an encoder -/

/-- `enc` writes the item `m` so that the decoder reads it back whatever
follows, and waits on every strict prefix. -/
structure Spells (p : φ) (enc : List β) (m : μ) : Prop where
  whole : ∀ s, G.decode p (enc ++ s) = .ok (some (m, enc.length))
  waits : ∀ s, s <+: enc → s ≠ enc → G.decode p s = .ok none

/-- A stream of encodings, each item read in the phase the earlier ones leave. -/
inductive Spelled : φ → List (List β × μ) → Prop
  | nil (p : φ) : Spelled p []
  | cons {p : φ} {enc : List β} {m : μ} {rest : List (List β × μ)} :
      G.Spells p enc m → Spelled (G.next p m) rest → Spelled p ((enc, m) :: rest)

variable {G}

theorem Spells.length_pos {p : φ} {enc : List β} {m : μ} (h : G.Spells p enc m) : 0 < enc.length := by
  have := h.whole []
  exact (G.takes this).1

theorem Spells.parse {p : φ} {enc : List β} {m : μ} (h : G.Spells p enc m) (s : List β) :
    G.parse p (enc ++ s) = (G.parse (G.next p m) s).cons m := by
  rw [G.parse_some (h.whole s), List.drop_left]

/-- The encodings in front are read, and what follows them is read next. -/
theorem Spelled.parse_then {p : φ} {l : List (List β × μ)} (h : G.Spelled p l) (s : List β) :
    ∃ q, G.parse p ((l.map Prod.fst).flatten ++ s) = (G.parse q s).after (l.map Prod.snd) := by
  induction h with
  | nil p => exact ⟨p, rfl⟩
  | cons hs _ ih =>
    obtain ⟨q, hq⟩ := ih
    refine ⟨q, ?_⟩
    rw [List.map_cons, List.flatten_cons, List.append_assoc, hs.parse, hq, Parse.cons_after]
    rfl

theorem Spelled.parse {p : φ} {l : List (List β × μ)} (h : G.Spelled p l)
    (hnil : ∀ q, G.decode q [] = .ok none) :
    (G.parse p (l.map Prod.fst).flatten).items = l.map Prod.snd ∧
      (G.parse p (l.map Prod.fst).flatten).rest = [] ∧
      (G.parse p (l.map Prod.fst).flatten).err = none := by
  obtain ⟨q, hq⟩ := h.parse_then []
  rw [List.append_nil, G.parse_none (hnil q)] at hq
  rw [hq]
  exact ⟨List.append_nil _, rfl, rfl⟩

/-- A cut of a spelled stream: the encodings it holds whole are read, and what
is left is a strict front part of the next one. -/
theorem Spelled.parse_cut {p : φ} {l : List (List β × μ)} (h : G.Spelled p l)
    (hnil : ∀ q, G.decode q [] = .ok none) {b t : List β} (hb : b ++ t = (l.map Prod.fst).flatten) :
    ∃ l₁ l₂ q rest, l = l₁ ++ l₂ ∧ b = (l₁.map Prod.fst).flatten ++ rest ∧
      rest ++ t = (l₂.map Prod.fst).flatten ∧
      (∀ enc m l', l₂ = (enc, m) :: l' → rest.length < enc.length) ∧
      G.Spelled q l₂ ∧ G.parse p b = ⟨l₁.map Prod.snd, q, rest, none⟩ := by
  induction h generalizing b t with
  | nil p =>
    obtain ⟨rfl, rfl⟩ := List.append_eq_nil_iff.mp hb
    exact ⟨[], [], p, [], rfl, rfl, rfl, (fun _ _ _ h => nomatch h), .nil p, G.parse_none (hnil p)⟩
  | @cons p enc m l hs hl ih =>
    rw [List.map_cons, List.flatten_cons] at hb
    by_cases hlt : b.length < enc.length
    · obtain ⟨u, hu⟩ : b <+: enc := List.prefix_of_prefix_length_le ⟨t, hb⟩ ⟨_, rfl⟩ (by omega)
      have hne : b ≠ enc := by rintro rfl; omega
      refine ⟨[], (enc, m) :: l, p, b, rfl, rfl, hb, ?_, .cons hs hl, ?_⟩
      · rintro enc' m' l' heq
        cases heq
        exact hlt
      · exact G.parse_none (hs.waits b ⟨u, hu⟩ hne)
    · obtain ⟨u, rfl⟩ : enc <+: b := List.prefix_of_prefix_length_le ⟨_, rfl⟩ ⟨t, hb⟩ (by omega)
      rw [List.append_assoc, List.append_cancel_left_eq] at hb
      obtain ⟨l₁, l₂, q, rest, rfl, rfl, hrest, hhead, hq, hparse⟩ := ih hb
      refine ⟨(enc, m) :: l₁, l₂, q, rest, rfl, by simp, hrest, hhead, hq, ?_⟩
      rw [hs.parse, hparse]
      rfl

end Grammar

end DroidMirror.Lib.Incremental
