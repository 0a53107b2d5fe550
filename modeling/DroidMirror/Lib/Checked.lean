import DroidMirror.Lib.LittleEndian

/-! # Checked operations

What panics gives `none`: an addition or a multiplication past the largest
word, a subtraction below zero, a division by zero, an index or a range past
the end, a conversion to an array of another length. Each has the condition
under which it gives its value, and so has a loop (`foldlM_value`). A loop that
fills a buffer piece by piece writes it at once (`foldlM_write`). -/
namespace DroidMirror.Lib.Checked
open DroidMirror.Lib.LittleEndian

/-- The sum of two words of `w` bits, where overflow is checked. -/
def add (w a b : Nat) : Option Nat := if a + b < 2 ^ w then some (a + b) else none

def sub (a b : Nat) : Option Nat := if b ≤ a then some (a - b) else none

def mul (w a b : Nat) : Option Nat := if a * b < 2 ^ w then some (a * b) else none

def div (a b : Nat) : Option Nat := if b = 0 then none else some (a / b)

/-- The sum, or the largest word. -/
def saturatingAdd (w a b : Nat) : Nat := min (a + b) (2 ^ w - 1)

/-- `buf[i]`. -/
def index (buf : List UInt8) (i : Nat) : Option UInt8 := buf[i]?

section
variable {α : Type}

/-- `&buf[i..j]`. -/
def range (buf : List α) (i j : Nat) : Option (List α) :=
  if i ≤ j ∧ j ≤ buf.length then some (slice buf i j) else none

/-- `&buf[i..]`. -/
def rangeFrom (buf : List α) (i : Nat) : Option (List α) :=
  if i ≤ buf.length then some (buf.drop i) else none

/-- `buf.try_into().unwrap()` to an array of `n`. -/
def array (n : Nat) (buf : List α) : Option (List α) :=
  if buf.length = n then some buf else none

/-- The first `n`, of a buffer that may be longer. -/
def front (n : Nat) (buf : List α) : Option (List α) :=
  if n ≤ buf.length then some (buf.take n) else none

/-- `buf[i..i + src.len()].copy_from_slice(src)`. -/
def write (buf : List α) (i : Nat) (src : List α) : Option (List α) :=
  if i + src.length ≤ buf.length then some (buf.take i ++ src ++ buf.drop (i + src.length)) else none

end

/-! ## When they give a value -/

/-- A step that gives a value goes on with it. -/
theorem bind_value {α β : Type} {x : Option α} {a : α} (h : x = some a) (f : α → Option β) :
    (x >>= f) = f a := by
  rw [h]; rfl

theorem add_ok {w a b : Nat} (h : a + b < 2 ^ w) : add w a b = some (a + b) := if_pos h

theorem add_overflow {w a b : Nat} (h : 2 ^ w ≤ a + b) : add w a b = none :=
  if_neg (Nat.not_lt.mpr h)

theorem sub_ok {a b : Nat} (h : b ≤ a) : sub a b = some (a - b) := if_pos h

theorem sub_underflow {a b : Nat} (h : a < b) : sub a b = none := if_neg (Nat.not_le.mpr h)

theorem mul_ok {w a b : Nat} (h : a * b < 2 ^ w) : mul w a b = some (a * b) := if_pos h

theorem div_ok {a b : Nat} (h : b ≠ 0) : div a b = some (a / b) := if_neg h

/-- A loop whose passes all give a value, from the invariant of what is left of it. -/
theorem foldlM_value {α β : Type} {f : β → α → Option β} (inv : List α → β → Prop) {l : List α}
    (step : ∀ a rest b, a ∈ l → inv (a :: rest) b → ∃ b', f b a = some b' ∧ inv rest b') {b : β}
    (hb : inv l b) : ∃ b', l.foldlM f b = some b' ∧ inv [] b' := by
  induction l generalizing b with
  | nil => exact ⟨b, rfl, hb⟩
  | cons a l ih =>
    obtain ⟨b', hf, hinv⟩ := step a l b List.mem_cons_self hb
    rw [List.foldlM_cons, bind_value hf]
    refine ih ?_ hinv
    intro c rest b hc h
    exact step c rest b (List.mem_cons_of_mem a hc) h

theorem index_ok {buf : List UInt8} {i : Nat} (h : i < buf.length) :
    index buf i = some (byteAt buf i) := by
  rw [index, byteAt, List.getD_eq_getElem?_getD, List.getElem?_eq_getElem h]
  rfl

section
variable {α : Type} {buf : List α} {i j n : Nat}

theorem range_ok (hij : i ≤ j) (hj : j ≤ buf.length) : range buf i j = some (slice buf i j) :=
  if_pos ⟨hij, hj⟩

theorem rangeFrom_ok (h : i ≤ buf.length) : rangeFrom buf i = some (buf.drop i) := if_pos h

theorem array_slice (h : i + n = j) (hj : j ≤ buf.length) :
    array n (slice buf i j) = some (slice buf i j) :=
  if_pos (by rw [length_slice]; omega)

theorem front_slice (h : i + n = j) (hj : j ≤ buf.length) :
    front n (slice buf i j) = some (slice buf i j) := by
  have hlen : (slice buf i j).length = n := by rw [length_slice]; omega
  rw [front, if_pos (by omega), List.take_of_length_le (by omega)]

theorem write_ok {src : List α} (h : i + src.length ≤ buf.length) :
    ∃ out, write buf i src = some out ∧ out.length = buf.length := by
  refine ⟨_, if_pos h, ?_⟩
  simp only [List.length_append, List.length_take, List.length_drop]
  omega

/-- Two writes one after the other are one. -/
theorem write_append {a b : List α} (h : i + a.length + b.length ≤ buf.length) :
    (write buf i a).bind (fun out => write out (i + a.length) b) = write buf i (a ++ b) := by
  have hfront : (buf.take i ++ a).length = i + a.length := by
    rw [List.length_append, List.length_take, Nat.min_eq_left (by omega)]
  have hlen : (buf.take i ++ a ++ buf.drop (i + a.length)).length = buf.length := by
    rw [List.length_append, hfront, List.length_drop, Nat.add_sub_of_le (by omega)]
  rw [write, if_pos (by omega), Option.bind_some, write, if_pos (by rw [hlen]; exact h), write,
    if_pos (by rw [List.length_append]; omega), List.take_left' hfront, List.append_assoc (buf.take i) a b,
    ← List.drop_drop, List.drop_left' hfront, List.drop_drop, List.length_append, Nat.add_assoc]

/-- A loop that writes pieces of one length next to each other writes them all at once. -/
theorem foldlM_write {f : List α → Nat → Option (List α)} {piece : Nat → List α} {base len n : Nat} {buf : List α}
    (hlen : ∀ k < n, (piece k).length = len)
    (hf : ∀ k < n, ∀ out : List α, out.length = buf.length → f out k = write out (base + k * len) (piece k))
    (hroom : base + n * len ≤ buf.length) :
    (List.range n).foldlM f buf = write buf base ((List.range n).flatMap piece) := by
  induction n with
  | zero =>
    rw [List.range_zero, List.flatMap_nil, write, if_pos (by rw [List.length_nil]; omega), List.append_nil,
      List.length_nil, Nat.add_zero, List.take_append_drop]
    rfl
  | succ n ih =>
    rw [Nat.succ_mul] at hroom
    have hpieces := length_flatMap_range fun k hk => hlen k (Nat.lt_succ_of_lt hk)
    have hlast := hlen n n.lt_succ_self
    have hbefore := ih (fun k hk => hlen k (Nat.lt_succ_of_lt hk)) (fun k hk => hf k (Nat.lt_succ_of_lt hk)) (by omega)
    have hfits : base + ((List.range n).flatMap piece).length ≤ buf.length := by omega
    obtain ⟨out, hout, hsame⟩ := write_ok hfits
    rw [List.range_succ, List.foldlM_append, hbefore, List.flatMap_append, List.flatMap_singleton,
      ← write_append (by omega), hout, hpieces]
    show [n].foldlM f out = write out (base + n * len) (piece n)
    rw [List.foldlM_cons, hf n n.lt_succ_self out hsame]
    cases write out (base + n * len) (piece n) <;> rfl

end

end DroidMirror.Lib.Checked
