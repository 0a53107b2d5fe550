import DroidMirror.Lib.Trim
import DroidMirror.Transport.Protocol

/-! # Choosing a device

The adb server lists its devices one on a line, the serial and the state with a
tab between them. `pickSerial` is `pick_serial`. It picks only what is online:
the device asked for, or else the one device there is, where emulators count
only if there is no other (`pickSerial_ok_iff`). -/
namespace DroidMirror.Transport
open DroidMirror.Lib.Trim

/-! ## The list -/

/-- `char::is_whitespace`. -/
def isWhitespace (c : Char) : Bool :=
  let n := c.toNat
  (9 ≤ n ∧ n ≤ 13) ∨ n = 0x20 ∨ n = 0x85 ∨ n = 0xa0 ∨ n = 0x1680 ∨ (0x2000 ≤ n ∧ n ≤ 0x200a) ∨
    n = 0x2028 ∨ n = 0x2029 ∨ n = 0x202f ∨ n = 0x205f ∨ n = 0x3000

structure Device where
  serial : String
  state : String
  deriving DecidableEq

def Device.online (d : Device) : Bool := d.state = "device"

/-- How a device that is not online is told of. -/
def Device.text (d : Device) : String := d.serial ++ " (" ++ d.state ++ ")"

def Device.emulator (serial : String) : Bool := "emulator-".toList <+: serial.toList

/-- A line of the list, unless it names no device. -/
def deviceOf (line : List Char) : Option Device :=
  let line := trim isWhitespace line
  if line = [] then none
  else
    let parts := line.splitOn '\t'
    let serial := trim isWhitespace (parts.headD [])
    let state := trim isWhitespace (parts.tail.headD [])
    if serial = [] then none else some ⟨String.ofList serial, String.ofList state⟩

def devicesOf (list : String) : List Device := (list.toList.splitOn '\n').filterMap deviceOf

def onlineOf (devices : List Device) : List String :=
  (devices.filter Device.online).map Device.serial

def otherOf (devices : List Device) : List String :=
  (devices.filter fun d => !d.online).map Device.text

def joined (texts : List String) : String := ", ".intercalate texts

/-- The match on `candidates.len()`. -/
def onlyOne (candidates other : List String) : Except AdbError String :=
  match candidates with
  | [serial] => .ok serial
  | [] =>
    .error (.msg ("adb server has no online device" ++
      (if other = [] then "" else " (" ++ joined other ++ ")")))
  | _ => .error (.msg ("multiple devices (" ++ joined candidates ++ "); pass --serial"))

def pickSerial (list : String) (want : Option String) : Except AdbError String :=
  let devices := devicesOf list
  let online := onlineOf devices
  let other := otherOf devices
  match want with
  | some want =>
    if want ∈ online then .ok want
    else if ∃ s ∈ other, want.toList <+: s.toList then
      .error (.msg (want ++ " is not authorized. Accept the USB debugging prompt, then retry"))
    else
      .error (.msg ("adb server has no device " ++ want ++ " (online: " ++
        (if online = [] then "none" else joined online) ++ ")"))
  | none =>
    let hardware := online.filter fun s => !Device.emulator s
    onlyOne (if hardware = [] then online else hardware) other

/-! ## Reading what was printed -/

/-- A word of the list: nothing to trim, and neither a tab nor the end of the line in it. -/
structure Word (text : String) : Prop where
  trimmed : Trimmed isWhitespace text.toList
  no_tab : '\t' ∉ text.toList
  no_newline : '\n' ∉ text.toList

/-- The list as the adb server prints it. -/
def listing (devices : List Device) : String :=
  String.ofList (devices.flatMap fun d => d.serial.toList ++ '\t' :: (d.state.toList ++ ['\n']))

structure Device.Listed (d : Device) : Prop where
  serial : Word d.serial
  state : Word d.state

theorem deviceOf_line {d : Device} (h : d.Listed) :
    deviceOf (d.serial.toList ++ '\t' :: d.state.toList) = some d := by
  have hline : Trimmed isWhitespace (d.serial.toList ++ '\t' :: d.state.toList) :=
    h.serial.trimmed.append ['\t'] h.state.trimmed
  have hparts : (d.serial.toList ++ '\t' :: d.state.toList).splitOn '\t' =
      [d.serial.toList, d.state.toList] := by
    rw [List.splitOn_append_cons_self_of_not_mem h.serial.no_tab,
      List.splitOn_eq_singleton h.state.no_tab]
  unfold deviceOf
  simp only [trim_trimmed hline, if_neg hline.ne_nil, hparts, List.headD_cons, List.tail_cons,
    trim_trimmed h.serial.trimmed, trim_trimmed h.state.trimmed, if_neg h.serial.trimmed.ne_nil,
    String.ofList_toList]

/-- The devices are read off the list they were printed on. -/
theorem devicesOf_listing {devices : List Device} (h : ∀ d ∈ devices, d.Listed) :
    devicesOf (listing devices) = devices := by
  rw [devicesOf, listing, String.toList_ofList]
  induction devices with
  | nil => rfl
  | cons d devices ih =>
    have hd := h d List.mem_cons_self
    have hline : '\n' ∉ d.serial.toList ++ '\t' :: d.state.toList := by
      intro hmem
      rcases List.mem_append.mp hmem with hmem | hmem
      · exact hd.serial.no_newline hmem
      · rcases List.mem_cons.mp hmem with htab | hmem
        · cases htab
        · exact hd.state.no_newline hmem
    have hcut : d.serial.toList ++ '\t' :: (d.state.toList ++ ['\n']) =
        (d.serial.toList ++ '\t' :: d.state.toList) ++ ['\n'] := by
      rw [List.append_assoc, List.cons_append]
    rw [List.flatMap_cons, hcut, List.append_assoc, List.singleton_append,
      List.splitOn_append_cons_self_of_not_mem hline, List.filterMap_cons, deviceOf_line hd]
    exact congrArg (d :: ·) (ih fun e he => h e (List.mem_cons_of_mem d he))

/-! ## The choice -/

/-- The devices that are online and no emulators. -/
def hardwareOf (devices : List Device) : List String :=
  (onlineOf devices).filter fun s => !Device.emulator s

/-- The device asked for is online; none asked for, it is the one that is, where an
emulator counts only among emulators. -/
def Chosen (devices : List Device) (serial : String) : Option String → Prop
  | some want => serial = want ∧ ⟨want, "device"⟩ ∈ devices
  | none => hardwareOf devices = [serial] ∨ (hardwareOf devices = [] ∧ onlineOf devices = [serial])

theorem mem_onlineOf {devices : List Device} {serial : String} :
    serial ∈ onlineOf devices ↔ ⟨serial, "device"⟩ ∈ devices := by
  rw [onlineOf, List.mem_map]
  constructor
  · rintro ⟨⟨s, state⟩, hd, rfl⟩
    obtain ⟨hmem, hstate⟩ := List.mem_filter.mp hd
    have heq : state = "device" := of_decide_eq_true hstate
    rwa [heq] at hmem
  · intro hmem
    exact ⟨_, List.mem_filter.mpr ⟨hmem, rfl⟩, rfl⟩

theorem onlyOne_ok_iff {candidates other : List String} {serial : String} :
    onlyOne candidates other = .ok serial ↔ candidates = [serial] := by
  match candidates with
  | [] => exact iff_of_false (fun heq => nomatch heq) (fun heq => nomatch heq)
  | [s] => simp [onlyOne]
  | s :: s' :: rest => exact iff_of_false (fun heq => nomatch heq) (fun heq => nomatch heq)

/-- A device is picked from the list of a server exactly if it is the one to choose. -/
theorem pickSerial_ok_iff {devices : List Device} (h : ∀ d ∈ devices, d.Listed) (want : Option String)
    (serial : String) : pickSerial (listing devices) want = .ok serial ↔ Chosen devices serial want := by
  unfold pickSerial
  rw [devicesOf_listing h]
  cases want with
  | some want =>
    simp only [Chosen, ← mem_onlineOf]
    by_cases honline : want ∈ onlineOf devices
    · rw [if_pos honline]
      exact ⟨fun heq => ⟨(Except.ok.inj heq).symm, honline⟩, fun heq => congrArg _ heq.1.symm⟩
    · rw [if_neg honline]
      refine iff_of_false ?_ fun heq => honline heq.2
      split
      · exact fun heq => nomatch heq
      · exact fun heq => nomatch heq
  | none =>
    show onlyOne (if hardwareOf devices = [] then onlineOf devices else hardwareOf devices) _ = _ ↔
      hardwareOf devices = [serial] ∨ (hardwareOf devices = [] ∧ onlineOf devices = [serial])
    rw [onlyOne_ok_iff]
    by_cases hhard : hardwareOf devices = []
    · simp [hhard]
    · simp [hhard]

end DroidMirror.Transport
