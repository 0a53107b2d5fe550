import DroidMirror.Transport.Push

/-! # A write among the other calls

`AdbClient.write` says in one piece what a `write` of the multiplexed connection
does step by step, while the reader and the other calls run in between. When the
call returns, its task has sent the payloads that the one piece writes, whatever
else happened meanwhile (`write_sends`, `write_returns`). -/
namespace DroidMirror.Transport
open DroidMirror.Lib.Run DroidMirror.Lib.Effects

/-! ## One call -/

/-- A write that has sent some of its packets, `all` in the end, has returned
them sent, or has failed. -/
def Call.WriteSent (id remote : UInt32) (all sent : List PacketCall) : Call → Prop
  | .writing id' remote' chunk rest | .writeSend id' remote' chunk rest _ =>
    id' = id ∧ remote' = remote ∧ sent ++ (chunk :: rest).map (⟨.wrte, id, remote, ·⟩) = all
  | .writeAck id' remote' rest _ =>
    id' = id ∧ remote' = remote ∧ sent ++ rest.map (⟨.wrte, id, remote, ·⟩) = all
  | .returned .wrote => sent = all
  | .returned (.failed _) => True
  | _ => False

/-- The packet an operation sends. -/
def Op.packets : Op → List PacketCall
  | .send p => [p]
  | _ => []

def CallEvent.begins : CallEvent → Bool
  | .begin_ _ => true
  | _ => false

/-- The id the device gave a stream, as far as its slot knows. -/
def Shared.remoteOf (s : Shared) (id : UInt32) : UInt32 :=
  (s.streams id).elim 0 fun h => (s.slots h).remoteId

/-- The packets of a write that begins now. -/
def Shared.writePackets (s : Shared) (id : UInt32) (data : List UInt8) : List PacketCall :=
  (writeChunks s.maxPayload data).map (⟨.wrte, id, s.remoteOf id, ·⟩)

namespace Call

theorem next_writeSent {s : Shared} {c c' : Call} {e : CallEvent} {op : Op}
    (h : c.next s e = some (op, c')) (he : e.begins = false) {id remote : UInt32}
    {all sent : List PacketCall} (hc : c.WriteSent id remote all sent) :
    c'.WriteSent id remote all (sent ++ op.packets) := by
  cases next_move h with
  | opens | readGone | reads | writeGone | writeEarly | writesNothing | writes | closeGone | closes =>
    cases he
  | writeLists | writesOn =>
    obtain ⟨rfl, rfl, hall⟩ := hc
    refine ⟨rfl, rfl, ?_⟩
    rw [Op.packets, List.append_nil]
    · exact hall
    · exact fun p hp => Op.noConfusion hp
  | writeSends =>
    obtain ⟨rfl, rfl, hall⟩ := hc
    refine ⟨rfl, rfl, ?_⟩
    rw [Op.packets, List.append_assoc]
    exact hall
  | wrote =>
    obtain ⟨_, _, hall⟩ := hc
    rw [List.map_nil, List.append_nil] at hall
    exact (List.append_nil sent).trans hall
  | writeRefused | writeDropped | writeFails | writeTimesOut => trivial
  | _ => exact hc.elim

/-- A write begins with all its packets to send, or is over. -/
theorem begin_writeSent {s : Shared} {c c' : Call} {id : UInt32} {data : List UInt8} {op : Op}
    (h : c.next s (.begin_ (.write id data)) = some (op, c')) :
    c'.WriteSent id (s.remoteOf id) (s.writePackets id data) [] := by
  cases next_move h with
  | writeGone | writeEarly => trivial
  | writesNothing _ _ _ hd => exact (congrArg (List.map _) hd).symm
  | @writes _ _ _ k _ _ _ hs _ hd =>
    have hremote : s.remoteOf id = (s.slots k).remoteId := by rw [Shared.remoteOf, hs, Option.elim_some]
    refine ⟨rfl, hremote.symm, ?_⟩
    rw [Shared.writePackets, hd, List.nil_append]

end Call

/-! ## Runs -/

namespace AdbClient
variable {τ : Type} [DecidableEq τ]

/-- What a task has sent after a step. -/
def sentBy (t : τ) (sent : List PacketCall) (s : AdbClient τ) (l : Label τ) (_ : AdbClient τ) :
    List PacketCall :=
  match l with
  | .reader _ => sent
  | .call t' e =>
    if t' = t then sent ++ (((s.calls t).next s.shared e).map fun (op, _) => op.packets).getD [] else sent

/-- The connection with what a task sends counted from here. -/
def stepSent (t : τ) : List PacketCall × AdbClient τ → Label τ → Option (List PacketCall × AdbClient τ) :=
  observed (sentBy t) step

/-- The task begins no other call. -/
def Stays (t : τ) (_ : List PacketCall × AdbClient τ) : Label τ → Prop
  | .reader _ => True
  | .call t' e => t' = t → e.begins = false

theorem stepSent_writeSent {t : τ} {id remote : UInt32} {all : List PacketCall}
    {p p' : List PacketCall × AdbClient τ} {l : Label τ} (hi : (p.2.calls t).WriteSent id remote all p.1)
    (hok : Stays t p l) (h : stepSent t p l = some p') : (p'.2.calls t).WriteSent id remote all p'.1 := by
  obtain ⟨hstep, hsent⟩ := observed_eq_some.mp h
  rw [hsent]
  generalize p'.2 = s' at hstep ⊢
  cases step_move hstep with
  | reader hnext => exact hi
  | @call t' e op c hnext =>
    by_cases ht : t' = t
    · subst ht
      have hmove := Call.next_writeSent hnext (hok rfl) hi
      simpa [sentBy, hnext] using hmove
    · simpa [sentBy, ht, Function.update_of_ne (Ne.symm ht)] using hi

/-- A write that has returned has sent all its packets, in any run. -/
theorem write_sends {s s' u : AdbClient τ} {t : τ} {id : UInt32} {data : List UInt8}
    (hbegin : step s (.call t (.begin_ (.write id data))) = some s') {ls : List (Label τ)}
    {sent : List PacketCall} (hrun : run (stepSent t) ([], s') ls = some (sent, u))
    (hok : Meets (stepSent t) (Stays t) ([], s') ls) (hret : u.calls t = .returned .wrote) :
    sent = s.shared.writePackets id data := by
  have hstart : (s'.calls t).WriteSent id (s.shared.remoteOf id) (s.shared.writePackets id data) [] := by
    cases step_move hbegin with
    | call hnext => simpa only [Function.update_self] using Call.begin_writeSent hnext
  have hend := run_invariant (fun _ _ _ hi hok hs => stepSent_writeSent hi hok hs) hrun hok hstart
  rw [hret] at hend
  exact hend

/-- The one piece writes what a write that has returned has sent. -/
theorem write_returns {s s' u : AdbClient τ} {t : τ} {id : UInt32} {data : List UInt8}
    (hbegin : step s (.call t (.begin_ (.write id data))) = some s') {ls : List (Label τ)}
    {sent : List PacketCall} (hrun : run (stepSent t) ([], s') ls = some (sent, u))
    (hok : Meets (stepSent t) (Stays t) ([], s') ls) (hret : u.calls t = .returned .wrote)
    {answers : Answers} (ha : answers.Acknowledge) (x : SyncStream) :
    Returns (write s.shared.maxPayload answers data) x () (x.pass (sent.map fun p => .wrote p.data)) := by
  rw [write_sends hbegin hrun hok hret, Shared.writePackets, List.map_map]
  exact ha.client_write s.shared.maxPayload data x

end AdbClient
end DroidMirror.Transport
