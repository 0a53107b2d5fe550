import DroidMirror.Server.Session

/-! # When the session ends

A turn ends the session where its read says so, and `read_some` says the same
of a read that was interrupted or would block as of the end of the file. So the
server hangs up only when the peer does exactly in the runs in which no readable
socket is read that way (`hangs_up_with_peer_iff`). -/
namespace DroidMirror.Server
open DroidMirror.Lib.Run DroidMirror.Proto

/-! ## What the socket says in a turn -/

/-- The end of the file, or an error that is not to be waited out. -/
def Turn.PeerGone (t : Turn) : Prop :=
  t.poll = .error .wouldBlock ∨ t.poll = .error .other ∨
    t.poll = .ok true ∧ (t.read = .ok [] ∨ t.read = .error .other)

/-- A read of a readable socket that got nothing for now. -/
def Turn.Spurious (t : Turn) : Prop :=
  t.poll = .ok true ∧ (t.read = .error .interrupted ∨ t.read = .error .wouldBlock)

instance (t : Turn) : Decidable t.PeerGone :=
  inferInstanceAs (Decidable (_ ∨ _ ∨ _ ∧ (_ ∨ _)))

instance (t : Turn) : Decidable t.Spurious := inferInstanceAs (Decidable (_ ∧ (_ ∨ _)))

/-- The code leaves its loop on both. -/
theorem arrival_gone_iff (t : Turn) :
    t.arrival = .gone ↔ t.PeerGone ∨ t.Spurious := by
  unfold Turn.arrival Turn.PeerGone Turn.Spurious
  rcases hp : t.poll with (_ | _ | _) | (_ | _)
  · simp [pollIn]
  · simp [pollIn]
  · simp [pollIn]
  · simp [pollIn]
  · rcases hr : t.read with (_ | _ | _) | (_ | ⟨b, rest⟩) <;> simp [pollIn, readSome]

namespace Serving
variable (F : Type) [F32Unsigned F] (cfg : ServerConfig)

/-! ## One turn -/

theorem receive_ended (s : Serving) (t : Turn) :
    (s.receive F t).ended = true ↔ s.ended = true ∨ t.arrival = .gone := by
  cases ha : t.arrival <;> simp [receive, dispatch, ha]

theorem sendFrame_ended {s : Serving} {t : Turn} (hs : s.ended = false) (hw : t.frameWritten = true) :
    (s.sendFrame t).ended = false := by
  obtain ⟨capture, _, hsend | ⟨_, au, hsend⟩⟩ := s.sendFrame_cases t
  · rw [hsend]
    exact hs
  · rw [hsend, hw]
    rfl

theorem checkDisplay_ended (s : Serving) (t : Turn) :
    (s.checkDisplay F cfg t).1.ended = s.ended := by
  cases hc : s.change? t with
  | none => rw [checkDisplay_none F cfg hc]
  | some now => exact (checkDisplay_frame F cfg hc).2

/-- While frames are written, a turn ends the session by what it reads or not at all. -/
theorem turn_ended_iff {s : Serving} {t : Turn} (hs : s.ended = false) (hw : t.frameWritten = true) :
    (s.turn F cfg t).1.ended = true ↔ t.arrival = .gone := by
  have hreceive := receive_ended F s t
  rw [hs, or_iff_right Bool.false_ne_true] at hreceive
  by_cases hgone : t.arrival = .gone
  · have hended : (s.upToCheck F t).ended = true := by
      rw [upToCheck]
      simp only [hreceive.mpr hgone, if_true]
    simp only [turn, hended, if_true, hgone, iff_true]
    exact hended
  · have hon : (s.receive F t).ended = false := Bool.eq_false_iff.mpr fun h => hgone (hreceive.mp h)
    have hsent : (s.upToCheck F t).ended = false := by
      rw [upToCheck]
      simp only [hon, Bool.false_eq_true, if_false]
      exact sendFrame_ended hon hw
    simp only [turn, hsent, Bool.false_eq_true, if_false, checkDisplay_ended, hgone]

/-! ## Runs -/

/-- The session goes on unless the peer is gone, and a read for nothing changes nothing of
what was received. -/
def HangsUpWithPeer (s : Serving) (t : Turn) : Prop :=
  ((s.turn F cfg t).1.ended = true → t.PeerGone) ∧
    (t.Spurious → (s.turn F cfg t).1.ended = false ∧ (s.turn F cfg t).1.demux = s.demux)

theorem hangsUp_turn_iff {s : Serving} {t : Turn} (hs : s.ended = false) (hw : t.frameWritten = true) :
    s.HangsUpWithPeer F cfg t ↔ ¬ t.Spurious := by
  have hended := turn_ended_iff F cfg hs hw
  rw [arrival_gone_iff] at hended
  constructor
  · intro ⟨_, hon⟩ hspurious
    have hend := hended.mpr (.inr hspurious)
    rw [(hon hspurious).1] at hend
    cases hend
  · intro hspurious
    exact ⟨fun hend => (hended.mp hend).resolve_right hspurious, fun h => absurd h hspurious⟩

/-- In a run whose frames are all written the server hangs up with its peer only, exactly if
no read of a readable socket is interrupted or would block. -/
theorem hangs_up_with_peer_iff {s u : Serving} {ts : List Turn}
    (hrun : run (step F cfg) s ts = some u) (hw : ∀ t ∈ ts, t.frameWritten = true) :
    Meets (step F cfg) (HangsUpWithPeer F cfg) s ts ↔ ∀ t ∈ ts, ¬ t.Spurious := by
  have hturn {before after : List Turn} {t : Turn} (hts : ts = before ++ t :: after) :
      ∃ v, run (step F cfg) s before = some v ∧ (v.HangsUpWithPeer F cfg t ↔ ¬ t.Spurious) := by
    rw [hts] at hrun
    obtain ⟨v, hv, hrest⟩ := run_append.mp hrun
    obtain ⟨v', hstep, _⟩ := run_cons.mp hrest
    have hon : v.ended = false := by
      by_contra hend
      rw [step, if_pos (by simpa using hend)] at hstep
      cases hstep
    exact ⟨v, hv, hangsUp_turn_iff F cfg hon (hw t (hts ▸ List.mem_append_cons_self))⟩
  rw [meets_iff]
  constructor
  · intro h t ht
    obtain ⟨before, after, hts⟩ := List.append_of_mem ht
    obtain ⟨v, hv, hiff⟩ := hturn hts
    exact hiff.mp (h before t after v hts hv)
  · intro h before t after v hts hv
    obtain ⟨v', hv', hiff⟩ := hturn hts
    cases hv.symm.trans hv'
    exact hiff.mpr (h t (hts ▸ List.mem_append_cons_self))

end Serving

/-- A turn that reads so many bytes, or none. -/
def Turn.ofRead (read : Except ErrorKind (List UInt8)) : Turn :=
  { Turn.idle with poll := .ok true, read }

namespace Serving

/-- A session whose peer sends a byte and closes. -/
theorem hangs_up_at_eof : ∃ s u, begin_ ℚ .default .plain = some s ∧
    run (step ℚ .default) s [.ofRead (.ok [0]), .ofRead (.ok [])] = some u ∧
    Meets (step ℚ .default) (HangsUpWithPeer ℚ .default) s [.ofRead (.ok [0]), .ofRead (.ok [])] := by
  have hbegin : (begin_ ℚ .default .plain).isSome = true := by decide +kernel
  obtain ⟨s, hs⟩ := Option.isSome_iff_exists.mp hbegin
  have hrun : ∀ s ∈ begin_ ℚ .default .plain,
      (run (step ℚ .default) s [.ofRead (.ok [0]), .ofRead (.ok [])]).isSome = true := by decide +kernel
  obtain ⟨u, hu⟩ := Option.isSome_iff_exists.mp (hrun s hs)
  exact ⟨s, u, hs, hu, (hangs_up_with_peer_iff ℚ .default hu (by decide)).mpr (by decide)⟩

/-- One interrupted read, and the session is over. -/
theorem interrupted_read_hangs_up : ∃ s u, begin_ ℚ .default .plain = some s ∧
    run (step ℚ .default) s [.ofRead (.error .interrupted)] = some u ∧ u.ended = true ∧
    ¬ s.HangsUpWithPeer ℚ .default (.ofRead (.error .interrupted)) := by
  have hbegin : (begin_ ℚ .default .plain).isSome = true := by decide +kernel
  obtain ⟨s, hs⟩ := Option.isSome_iff_exists.mp hbegin
  have hon : s.ended = false := by
    have hall : ∀ s ∈ begin_ ℚ .default .plain, s.ended = false := by decide +kernel
    exact hall s hs
  have hlawful := hangsUp_turn_iff ℚ .default hon
    (show (Turn.ofRead (.error .interrupted)).frameWritten = true from rfl)
  have hend := turn_ended_iff ℚ .default hon
    (show (Turn.ofRead (.error .interrupted)).frameWritten = true from rfl)
  refine ⟨s, (s.turn ℚ .default (.ofRead (.error .interrupted))).1, hs, ?_, hend.mpr rfl, ?_⟩
  · rw [run, step, hon]
    rfl
  · rw [hlawful]
    exact not_not_intro ⟨rfl, .inl rfl⟩

end Serving

end DroidMirror.Server
