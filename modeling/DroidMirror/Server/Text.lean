import DroidMirror.Lib.Codes
import DroidMirror.Server.Inject

/-! # Injected text

The table of `crates/server/src/keys.rs` and `UInput::text`. The table numbers
the letters in a row, as the kernel does not, and so puts eight of them on the
keys of marks or on Shift. `text_faithful` says which texts come out right on
some keyboard: those without these letters and marks. -/
namespace DroidMirror.Server
open DroidMirror.Lib.Codes

/-- The keys of the table, and whether Shift is held. -/
def asciiToLinux (c : Char) : Option (UInt16 × Bool) :=
  if 'a' ≤ c ∧ c ≤ 'z' then some (30 + (c.val.toUInt16 - 'a'.val.toUInt16), false)
  else if 'A' ≤ c ∧ c ≤ 'Z' then some (30 + (c.val.toUInt16 - 'A'.val.toUInt16), true)
  else if '1' ≤ c ∧ c ≤ '9' then some (2 + (c.val.toUInt16 - '1'.val.toUInt16), false)
  else
    match c with
    | '0' => some (11, false)
    | ' ' => some (57, false)
    | '\n' | '\r' => some (28, false)
    | '\t' => some (15, false)
    | '!' => some (2, true)
    | '@' => some (3, true)
    | '#' => some (4, true)
    | '$' => some (5, true)
    | '%' => some (6, true)
    | '^' => some (7, true)
    | '&' => some (8, true)
    | '*' => some (9, true)
    | '(' => some (10, true)
    | ')' => some (11, true)
    | '-' => some (12, false)
    | '_' => some (12, true)
    | '=' => some (13, false)
    | '+' => some (13, true)
    | '[' => some (26, false)
    | '{' => some (26, true)
    | ']' => some (27, false)
    | '}' => some (27, true)
    | '\\' => some (43, false)
    | '|' => some (43, true)
    | ';' => some (39, false)
    | ':' => some (39, true)
    | '\'' => some (40, false)
    | '"' => some (40, true)
    | ',' => some (51, false)
    | '<' => some (51, true)
    | '.' => some (52, false)
    | '>' => some (52, true)
    | '/' => some (53, false)
    | '?' => some (53, true)
    | '`' => some (41, false)
    | '~' => some (41, true)
    | _ => none

def KEY_LEFTSHIFT : UInt16 := 42

/-- A key pressed and released, with Shift held around it if need be. -/
def strokeEvents (code : UInt16) (shift : Bool) : List Ev :=
  (if shift then keyEvents KEY_LEFTSHIFT true else []) ++ keyEvents code true ++ keyEvents code false ++
    (if shift then keyEvents KEY_LEFTSHIFT false else [])

/-- What `UInput::text` writes. It logs the characters without a key and goes on. -/
def UInput.text (s : String) : List Ev :=
  s.toList.flatMap fun c =>
    match asciiToLinux c with
    | none => []
    | some (code, shift) => strokeEvents code shift

/-! ## Reading the keys back -/

/-- What a keyboard of which `table` says the characters types. -/
def typed (table : UInt16 → Bool → Option Char) (shift : Bool) : List Ev → List Char
  | [] => []
  | e :: events =>
    if e.type ≠ EV_KEY then typed table shift events
    else if e.code = KEY_LEFTSHIFT then typed table (e.value ≠ 0) events
    else if e.value ≠ 0 then (table e.code shift).toList ++ typed table shift events
    else typed table shift events

def Supported (s : String) : Prop := ∀ c ∈ s.toList, (asciiToLinux c).isSome

instance (s : String) : Decidable (Supported s) := List.decidableBAll _ s.toList

/-- A carriage return is typed as a newline. -/
def lineEnd (c : Char) : Char := if c = '\r' then '\n' else c

/-- The events say what the text was: no other text has them, the keyboard types
the text, no character is the Shift key itself, and Shift is up in the end. -/
structure Faithful (table : UInt16 → Bool → Option Char) (s : String) : Prop where
  unique : ∀ t, Supported t → UInput.text t = UInput.text s → t.toList.map lineEnd = s.toList.map lineEnd
  decoded : typed table false (UInput.text s) = s.toList.map lineEnd
  keys : ∀ c ∈ s.toList, ∀ k, asciiToLinux c = some k → k.1 ≠ KEY_LEFTSHIFT
  released : keysAfter (fun _ => false) (UInput.text s) KEY_LEFTSHIFT = false

def ascii : List Char := (List.range 128).map Char.ofNat

/-- The keyboard that types the first ASCII character of a key. -/
def keyTable (code : UInt16) (shift : Bool) : Option Char :=
  ascii.find? fun c => asciiToLinux c = some (code, shift)

/-- The characters that share a key, and the two that are on the Shift key. The
letters take 26 codes in a row, over those of the marks. -/
def ambiguous : List Char :=
  ['j', 'k', 'l', 'm', 'n', 'v', 'w', 'x', 'J', 'K', 'L', 'M', 'N', 'V', 'W', 'X',
    ';', ':', '\'', '"', '`', '~', '\\', '|', ',', '<', '.', '>', '/', '?']

theorem mem_ascii {c : Char} (h : c.toNat < 128) : c ∈ ascii :=
  List.mem_map.mpr ⟨c.toNat, List.mem_range.mpr h, Char.ofNat_toNat c⟩

theorem ascii_of_supported {c : Char} {k : UInt16 × Bool} (h : asciiToLinux c = some k) : c ∈ ascii := by
  refine mem_ascii ?_
  have hz : ('z' : Char).toNat < 128 := by decide
  have hZ : ('Z' : Char).toNat < 128 := by decide
  have h9 : ('9' : Char).toNat < 128 := by decide
  unfold asciiToLinux at h
  split at h
  · rename_i hc
    exact Nat.lt_of_le_of_lt hc.2 hz
  · split at h
    · rename_i hc
      exact Nat.lt_of_le_of_lt hc.2 hZ
    · split at h
      · rename_i hc
        exact Nat.lt_of_le_of_lt hc.2 h9
      · split at h <;> first | decide | cases h

/-- The key of an ambiguous character types one of them; every other character is
what its key types, and that key is not Shift. -/
theorem keyTable_reads {c : Char} {k : UInt16 × Bool} (h : asciiToLinux c = some k) :
    if c ∈ ambiguous then (keyTable k.1 k.2).all (· ∈ ambiguous)
    else keyTable k.1 k.2 = some (lineEnd c) ∧ k.1 ≠ KEY_LEFTSHIFT := by
  have hall : ascii.all fun c => (asciiToLinux c).all fun k =>
      if c ∈ ambiguous then (keyTable k.1 k.2).all (· ∈ ambiguous)
      else keyTable k.1 k.2 = some (lineEnd c) ∧ k.1 ≠ KEY_LEFTSHIFT := by
    decide +kernel
  have hc := List.all_eq_true.mp hall c (ascii_of_supported h)
  rw [h, Option.all_some] at hc
  split
  · rename_i hamb
    rwa [if_pos hamb] at hc
  · rename_i hamb
    rw [if_neg hamb] at hc
    exact of_decide_eq_true hc

/-- An ambiguous character is on the Shift key, or has a double. -/
theorem ambiguous_double {c : Char} (h : c ∈ ambiguous) {k : UInt16 × Bool} (hk : asciiToLinux c = some k) :
    k.1 = KEY_LEFTSHIFT ∨ ∃ d, asciiToLinux d = some k ∧ lineEnd d ≠ lineEnd c := by
  have hall : ambiguous.all fun c => (asciiToLinux c).all fun k =>
      k.1 = KEY_LEFTSHIFT || ambiguous.any fun d => asciiToLinux d = some k ∧ lineEnd d ≠ lineEnd c := by
    decide +kernel
  have hc := List.all_eq_true.mp hall c h
  rw [hk, Option.all_some] at hc
  rcases Bool.or_eq_true_iff.mp hc with hshift | hdouble
  · exact .inl (of_decide_eq_true hshift)
  · obtain ⟨d, _, hd⟩ := List.any_eq_true.mp hdouble
    exact .inr ⟨d, of_decide_eq_true hd⟩

/-! ## Strokes -/

theorem strokeEvents_separates : Separates fun k : UInt16 × Bool => strokeEvents k.1 k.2 where
  ne_nil := by
    intro ⟨code, shift⟩
    cases shift <;> exact List.cons_ne_nil _ _
  front := by
    intro ⟨code, shift⟩ ⟨code', shift'⟩ r s h
    cases shift <;> cases shift' <;> simp [strokeEvents, keyEvents] at h ⊢
    · exact h
    · exact h

theorem typed_strokeEvents (table : UInt16 → Bool → Option Char) {code : UInt16}
    (hcode : code ≠ KEY_LEFTSHIFT) (shift : Bool) (events : List Ev) :
    typed table false (strokeEvents code shift ++ events) =
      (table code shift).toList ++ typed table false events := by
  cases shift <;> simp [strokeEvents, keyEvents, typed, hcode, EV_KEY, EV_SYN]

theorem shift_up_strokeEvents {down : UInt16 → Bool} (hdown : down KEY_LEFTSHIFT = false)
    (code : UInt16) (shift : Bool) : keysAfter down (strokeEvents code shift) KEY_LEFTSHIFT = false := by
  cases shift <;> simp [strokeEvents, keysAfter_append, Function.update_apply, hdown]

/-- The keys of a text. -/
def strokes (s : String) : List (UInt16 × Bool) := s.toList.filterMap asciiToLinux

theorem text_eq_strokes (s : String) :
    UInput.text s = (strokes s).flatMap fun k => strokeEvents k.1 k.2 := by
  unfold UInput.text strokes
  induction s.toList with
  | nil => rfl
  | cons c cs ih =>
    rw [List.flatMap_cons, ih]
    cases hc : asciiToLinux c with
    | none => rw [List.filterMap_cons_none hc]; rfl
    | some k => rw [List.filterMap_cons_some hc]; rfl

theorem text_inj {s t : String} (h : UInput.text s = UInput.text t) : strokes s = strokes t := by
  rw [text_eq_strokes, text_eq_strokes] at h
  exact strokeEvents_separates.flatMap_inj h

theorem shift_up (s : String) : keysAfter (fun _ => false) (UInput.text s) KEY_LEFTSHIFT = false := by
  rw [text_eq_strokes]
  have hup : ∀ (ks : List (UInt16 × Bool)) (down : UInt16 → Bool), down KEY_LEFTSHIFT = false →
      keysAfter down (ks.flatMap fun k => strokeEvents k.1 k.2) KEY_LEFTSHIFT = false := by
    intro ks
    induction ks with
    | nil => exact fun _ h => h
    | cons k ks ih =>
      intro down hdown
      rw [List.flatMap_cons, keysAfter_append]
      exact ih _ (shift_up_strokeEvents hdown k.1 k.2)
  exact hup (strokes s) _ rfl

/-! ## Clean texts -/

def Clean (s : String) : Prop := ∀ c ∈ s.toList, c ∉ ambiguous

instance (s : String) : Decidable (Clean s) := List.decidableBAll _ s.toList

theorem key_of_clean {c : Char} (hc : c ∉ ambiguous) {k : UInt16 × Bool} (hk : asciiToLinux c = some k) :
    keyTable k.1 k.2 = some (lineEnd c) ∧ k.1 ≠ KEY_LEFTSHIFT := by
  have hread := keyTable_reads hk
  rwa [if_neg hc] at hread

theorem lineEnd_clean {c : Char} (hc : c ∉ ambiguous) : lineEnd c ∉ ambiguous := by
  unfold lineEnd
  split
  · decide
  · exact hc

/-- A character on the key of a clean one is that one, up to the line end. -/
theorem same_key {c d : Char} (hc : c ∉ ambiguous) {k : UInt16 × Bool} (hk : asciiToLinux c = some k)
    (hd : asciiToLinux d = some k) : lineEnd d = lineEnd c := by
  have hread := (key_of_clean hc hk).1
  by_cases hamb : d ∈ ambiguous
  · have hkey := keyTable_reads hd
    rw [if_pos hamb, hread, Option.all_some] at hkey
    exact absurd (of_decide_eq_true hkey) (lineEnd_clean hc)
  · exact Option.some.inj ((key_of_clean hamb hd).1.symm.trans hread)

theorem typed_clean {cs : List Char} (hs : ∀ c ∈ cs, (asciiToLinux c).isSome)
    (hc : ∀ c ∈ cs, c ∉ ambiguous) :
    typed keyTable false ((cs.filterMap asciiToLinux).flatMap fun k => strokeEvents k.1 k.2) =
      cs.map lineEnd := by
  induction cs with
  | nil => rfl
  | cons c cs ih =>
    obtain ⟨k, hk⟩ := Option.isSome_iff_exists.mp (hs c List.mem_cons_self)
    obtain ⟨hread, hshift⟩ := key_of_clean (hc c List.mem_cons_self) hk
    rw [List.filterMap_cons_some hk, List.flatMap_cons, typed_strokeEvents _ hshift, hread,
      ih (fun d hd => hs d (List.mem_cons_of_mem c hd)) fun d hd => hc d (List.mem_cons_of_mem c hd)]
    rfl

theorem lineEnds_of_strokes {cs ds : List Char} (hs : ∀ c ∈ cs, (asciiToLinux c).isSome)
    (hc : ∀ c ∈ cs, c ∉ ambiguous) (ht : ∀ d ∈ ds, (asciiToLinux d).isSome)
    (h : ds.filterMap asciiToLinux = cs.filterMap asciiToLinux) : ds.map lineEnd = cs.map lineEnd := by
  induction cs generalizing ds with
  | nil =>
    cases ds with
    | nil => rfl
    | cons d ds =>
      obtain ⟨k, hk⟩ := Option.isSome_iff_exists.mp (ht d List.mem_cons_self)
      rw [List.filterMap_cons_some hk] at h
      cases h
  | cons c cs ih =>
    obtain ⟨k, hk⟩ := Option.isSome_iff_exists.mp (hs c List.mem_cons_self)
    rw [List.filterMap_cons_some hk] at h
    cases ds with
    | nil => cases h
    | cons d ds =>
      obtain ⟨k', hk'⟩ := Option.isSome_iff_exists.mp (ht d List.mem_cons_self)
      rw [List.filterMap_cons_some hk'] at h
      obtain ⟨rfl, htail⟩ := List.cons.inj h
      rw [List.map_cons, List.map_cons, same_key (hc c List.mem_cons_self) hk hk',
        ih (fun e he => hs e (List.mem_cons_of_mem c he)) (fun e he => hc e (List.mem_cons_of_mem c he))
          (fun e he => ht e (List.mem_cons_of_mem d he)) htail]

/-- A character in a text can be replaced by one with the same key. -/
theorem text_replace {s : String} {before after : List Char} {c d : Char}
    (hs : s.toList = before ++ c :: after) (h : asciiToLinux d = asciiToLinux c) :
    UInput.text (String.ofList (before ++ d :: after)) = UInput.text s := by
  rw [text_eq_strokes, text_eq_strokes, strokes, strokes, hs, String.toList_ofList]
  simp only [List.filterMap_append, List.filterMap_cons, h]

theorem supported_replace {s : String} {before after : List Char} {c d : Char}
    (hs : s.toList = before ++ c :: after) (h : asciiToLinux d = asciiToLinux c) (hsup : Supported s) :
    Supported (String.ofList (before ++ d :: after)) := by
  simp only [Supported, String.toList_ofList, hs, List.forall_mem_append, List.forall_mem_cons] at hsup ⊢
  rw [h]
  exact hsup

/-- Of the texts the keys support, the clean ones are written faithfully, and no
other. -/
theorem text_faithful {s : String} (hs : Supported s) : Faithful keyTable s ↔ Clean s := by
  constructor
  · intro h c hc hamb
    obtain ⟨k, hk⟩ := Option.isSome_iff_exists.mp (hs c hc)
    rcases ambiguous_double hamb hk with hkey | ⟨d, hd, hne⟩
    · exact h.keys c hc k hk hkey
    · have hsame := hd.trans hk.symm
      obtain ⟨before, after, hsplit⟩ := List.append_of_mem hc
      have hlines := h.unique _ (supported_replace hsplit hsame hs) (text_replace hsplit hsame)
      rw [String.toList_ofList, hsplit, List.map_append, List.map_append] at hlines
      exact hne (List.cons.inj (List.append_cancel_left hlines)).1
  · intro h
    refine ⟨?_, ?_, ?_, shift_up s⟩
    · intro t ht heq
      exact lineEnds_of_strokes hs h ht (text_inj heq)
    · rw [text_eq_strokes]
      exact typed_clean hs h
    · intro c hc k hk
      exact (key_of_clean (h c hc) hk).2

theorem text_faithful_hello : Faithful keyTable "Good day\n" :=
  (text_faithful (by decide)).mpr (by decide)

theorem text_unfaithful : ¬ ∀ s t : String, Supported s → Supported t →
    UInput.text s = UInput.text t → s.toList.map lineEnd = t.toList.map lineEnd := by
  intro h
  have hsame := h "j" ";" (by decide) (by decide) (by decide)
  exact absurd hsame (by decide)

end DroidMirror.Server
