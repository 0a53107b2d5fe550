import DroidMirror.Server.Control

/-! # Client to server

The bytes of any list of accepted control calls, cut in any way, make the
demux do exactly those calls (`pushAll_controls`). -/
namespace DroidMirror.ControlDemux
open DroidMirror.Proto DroidMirror.Lib.Incremental

section
variable {F : Type} [F32 F]

/-- The calls that return a frame: a point `map_to_device` accepts, a text of
at most 65535 bytes. -/
def Accepted (c : Client) : ControlCall F → Prop
  | .touch _ _ cssX cssY viewW viewH _ | .scroll cssX cssY viewW viewH _ _ =>
    (Client.mapToDevice cssX cssY viewW viewH c.width c.height c.rotation).isSome = true
  | .text s => (asBytes s).length ≤ 65535
  | _ => True

instance (c : Client) (call : ControlCall F) : Decidable (Accepted c call) := by
  cases call <;> unfold Accepted <;> infer_instance

/-- What a control call is to do at the other end. -/
def injected (c : Client) : ControlCall F → Option Call
  | .touch action id cssX cssY viewW viewH pressure =>
    (Client.mapToDevice cssX cssY viewW viewH c.width c.height c.rotation).map fun p =>
      .touch action.toU8 id p.1 p.2 (encodePressure pressure)
  | .key action keycode metaState => some (.key action.toU8 keycode metaState)
  | .nav keycode action => some (.key action.toU8 keycode 0)
  | .text s => some (.text s)
  | .scroll cssX cssY viewW viewH hscroll vscroll =>
    (Client.mapToDevice cssX cssY viewW viewH c.width c.height c.rotation).map fun p =>
      .scroll p.1 p.2 (notches F (encodeScroll hscroll)) (notches F (encodeScroll vscroll))
  | .setEncoding bitrate maxFps maxSize => some (.setEncoding bitrate maxFps maxSize)
  | .pause on => some (.pause on)

/-- The bytes `b` are a message that fits, and the one call it makes is `k`. -/
structure Carries (b : List UInt8) (k : Option Call) (m : Message) : Prop where
  fits : m.Fits
  encoded : m.encode = .ok b
  made : (applyMessage F m).map some = [k]

theorem carries_encode {m : Message} {k : Option Call} (h : m.Fits)
    (hk : (applyMessage F m).map some = [k]) : Carries (F := F) (Client.encode m) k m := by
  obtain ⟨b, hb, _⟩ := encode_spells h
  refine ⟨h, ?_, hk⟩
  rw [Client.encode, hb]

theorem fits_small {m : Message} (h : m.payloadLen ≤ 16) (hf : m.FieldsFit) : m.Fits := by
  refine ⟨?_, hf⟩
  rw [max_frame_len_toNat]
  omega

theorem controlCall_carries (c : Client) (call : ControlCall F) (h : Accepted c call) :
    ∃ m, Carries (F := F) (call.bytes c) (injected c call) m := by
  cases call with
  | touch action id cssX cssY viewW viewH pressure =>
    obtain ⟨⟨x, y⟩, hp⟩ := Option.isSome_iff_exists.mp h
    have hfits : (Message.touch action.toU8 id x y (encodePressure pressure)).Fits :=
      fits_small (by simp [Message.payloadLen]) trivial
    refine ⟨.touch action.toU8 id x y (encodePressure pressure), ?_⟩
    simp only [ControlCall.bytes, Client.touch, injected, hp]
    exact carries_encode hfits rfl
  | scroll cssX cssY viewW viewH hscroll vscroll =>
    obtain ⟨⟨x, y⟩, hp⟩ := Option.isSome_iff_exists.mp h
    have hfits : (Message.scroll x y (encodeScroll hscroll) (encodeScroll vscroll)).Fits :=
      fits_small (by simp [Message.payloadLen]) trivial
    refine ⟨.scroll x y (encodeScroll hscroll) (encodeScroll vscroll), ?_⟩
    simp only [ControlCall.bytes, Client.scroll, injected, hp]
    exact carries_encode hfits rfl
  | key action keycode metaState =>
    have hfits : (Message.key action.toU8 keycode metaState).Fits :=
      fits_small (by simp [Message.payloadLen]) trivial
    exact ⟨_, carries_encode hfits rfl⟩
  | nav keycode action =>
    have hfits : (Message.keySyn keycode action.toU8).Fits :=
      fits_small (by simp [Message.payloadLen]) trivial
    exact ⟨_, carries_encode hfits rfl⟩
  | text s =>
    have hs : (asBytes s).length ≤ 65535 := h
    have hfits : (Message.text s).Fits :=
      ⟨by rw [max_frame_len_toNat, Message.payloadLen]; omega, hs⟩
    exact ⟨_, carries_encode hfits rfl⟩
  | setEncoding bitrate maxFps maxSize =>
    have hfits : (Message.setEncoding bitrate maxFps maxSize).Fits :=
      fits_small (by simp [Message.payloadLen]) trivial
    exact ⟨_, carries_encode hfits rfl⟩
  | pause on =>
    have hfits : (Message.pauseResume on).Fits := fits_small (by simp [Message.payloadLen]) trivial
    exact ⟨_, carries_encode hfits rfl⟩

/-- The frames a list of accepted control calls writes, with their messages. -/
theorem controls_spelled (cs : List (Client × ControlCall F)) (h : ∀ x ∈ cs, Accepted x.1 x.2) :
    ∃ l : List (List UInt8 × Message), frames.Spelled () l ∧
      l.map Prod.fst = cs.map (fun x => x.2.bytes x.1) ∧
      ((l.map Prod.snd).flatMap (applyMessage F)).map some = cs.map fun x => injected x.1 x.2 := by
  induction cs with
  | nil => exact ⟨[], .nil (), rfl, rfl⟩
  | cons x rest ih =>
    obtain ⟨l, hspelled, hbytes, hcalls⟩ := ih fun y hy => h y (List.mem_cons_of_mem _ hy)
    obtain ⟨m, hfits, hb, hmade⟩ := controlCall_carries x.1 x.2 (h x List.mem_cons_self)
    obtain ⟨b, hb', hwhole, hwaits⟩ := encode_spells hfits
    obtain rfl : b = x.2.bytes x.1 := Except.ok.inj (hb'.symm.trans hb)
    refine ⟨(x.2.bytes x.1, m) :: l, .cons ⟨hwhole, hwaits⟩ hspelled, ?_, ?_⟩
    · rw [List.map_cons, List.map_cons, hbytes]
    · rw [List.map_cons, List.flatMap_cons, List.map_append, hmade, hcalls]
      rfl

/-- **Client to server.** Every push returns `Ok`, the buffer ends empty, and
each control call is made once, in order and with its arguments. -/
theorem pushAll_controls (cs : List (Client × ControlCall F)) (chunks : List (List UInt8))
    (h : ∀ x ∈ cs, Accepted x.1 x.2)
    (hc : chunks.flatten = (cs.map fun x => x.2.bytes x.1).flatten) :
    (pushAll F new chunks).1.buf = [] ∧
      (pushAll F new chunks).2.1.map some = cs.map (fun x => injected x.1 x.2) ∧
      ∀ r ∈ (pushAll F new chunks).2.2, r = .ok () := by
  obtain ⟨l, hspelled, hbytes, hcalls⟩ := controls_spelled cs h
  obtain ⟨hitems, hrest, herr⟩ := hspelled.parse fun _ => rfl
  rw [hbytes, ← hc] at hitems hrest herr
  have hall := pushAll_ok F chunks new rfl herr
  rw [show new.buf ++ chunks.flatten = chunks.flatten from rfl, hitems, hrest] at hall
  rw [hall]
  refine ⟨rfl, hcalls, ?_⟩
  intro r hr
  obtain ⟨_, _, rfl⟩ := List.mem_map.mp hr
  rfl

end

/-- A touch in the middle of a 100 by 200 frame and a text, cut in three. -/
theorem pushAll_controls_touch :
    (pushAll ℚ new [[13, 0, 0], [0, 0x10, 0, 7, 50, 0, 0, 0, 100, 0, 0, 0, 255, 255, 5, 0, 0, 0, 0x12],
      [2, 0, 104, 105]]).2.1.map some = [some (.touch 0 7 50 100 65535), some (.text "hi")] :=
  (pushAll_controls (F := ℚ)
    [({ Client.new with width := 100, height := 200 }, .touch .down 7 50 100 100 200 1),
      (Client.new, .text "hi")]
    [[13, 0, 0], [0, 0x10, 0, 7, 50, 0, 0, 0, 100, 0, 0, 0, 255, 255, 5, 0, 0, 0, 0x12],
      [2, 0, 104, 105]]
    (by decide +kernel) (by decide +kernel)).2.1.trans (by decide +kernel)

end DroidMirror.ControlDemux
