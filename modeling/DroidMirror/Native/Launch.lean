import DroidMirror.Server.Args

/-! # The launch line

The host starts the server by a shell line that carries its configuration as
options; the server reads the words after its class name. Both ends agree on
every number and on the codec (`launchCommand_parsed`). -/
namespace DroidMirror.Native
open DroidMirror.Server DroidMirror.Lib.Decimal

/-- What the launch line is made from. -/
structure ArgsSnapshot where
  bitrate : UInt32
  maxFps : UInt32
  maxSize : UInt16
  codec : String

def REMOTE_DIR : String := "/data/local/tmp/droidmirror"

/-- Where `deploy` pushes the library. -/
def libraryPath : String := REMOTE_DIR ++ "/libdroidmirror_server.so"

/-- The codec asked for, in whatever case it was given. -/
def wantsH265 (codec : String) : Bool :=
  eqIgnoreAsciiCase codec "h265" || eqIgnoreAsciiCase codec "hevc"

def launchCommand (args : ArgsSnapshot) : String :=
  let codec := if wantsH265 args.codec then "h265" else "h264"
  "CLASSPATH=" ++ REMOTE_DIR ++ "/droidmirror.dex exec app_process / com.droidmirror.Server --bitrate " ++
    toString args.bitrate.toNat ++ " --max-fps " ++ toString args.maxFps.toNat ++ " --max-size " ++
    toString args.maxSize.toNat ++ " --codec " ++ codec ++ " --lib=" ++ REMOTE_DIR ++
    "/libdroidmirror_server.so"

/-- A line cut at its spaces. -/
def wordsOf (line : String) : List String := (line.toList.splitOn ' ').map String.ofList

/-- The words after the server's class name. -/
def serverArgs (words : List String) : List String :=
  (words.dropWhile (· ≠ "com.droidmirror.Server")).tail

theorem wordsOf_eq {line : String} {words : List String} (hne : words ≠ [])
    (hs : ∀ w ∈ words, ' ' ∉ w.toList)
    (h : line.toList = [' '].intercalate (words.map String.toList)) : wordsOf line = words := by
  rw [wordsOf, h, List.splitOn_intercalate]
  · simp [Function.comp_def]
  · intro l hl
    obtain ⟨w, hw, rfl⟩ := List.mem_map.mp hl
    exact hs w hw
  · simpa using hne

theorem digits_no_space (n : Nat) : ' ' ∉ (toString n).toList := by
  rw [show (toString n).toList = Nat.toDigits 10 n from Nat.toList_repr]
  intro h
  cases Nat.isDigit_of_mem_toDigits (by omega) (by omega) h

/-- The words of the launch line: the command, and one option after the other. -/
def launchWords (args : ArgsSnapshot) : List String :=
  ["CLASSPATH=/data/local/tmp/droidmirror/droidmirror.dex", "exec", "app_process", "/",
    "com.droidmirror.Server", "--bitrate", toString args.bitrate.toNat, "--max-fps",
    toString args.maxFps.toNat, "--max-size", toString args.maxSize.toNat, "--codec",
    if wantsH265 args.codec then "h265" else "h264", libOption ++ libraryPath]

theorem codec_no_space (codec : String) :
    ' ' ∉ (if wantsH265 codec then "h265" else "h264").toList := by
  split <;> decide

/-- The line's fixed parts, cut at their spaces. -/
theorem launch_parts :
    "CLASSPATH=" ++ REMOTE_DIR ++
        "/droidmirror.dex exec app_process / com.droidmirror.Server --bitrate " =
      "CLASSPATH=/data/local/tmp/droidmirror/droidmirror.dex" ++ " " ++ "exec" ++ " " ++
        "app_process" ++ " " ++ "/" ++ " " ++ "com.droidmirror.Server" ++ " " ++ "--bitrate" ++ " " ∧
    " --max-fps " = " " ++ "--max-fps" ++ " " ∧ " --max-size " = " " ++ "--max-size" ++ " " ∧
    " --codec " = " " ++ "--codec" ++ " " ∧ " --lib=" = " " ++ libOption := by
  decide

/-- No number and no name in the line has a space in it. -/
theorem wordsOf_launchCommand (args : ArgsSnapshot) :
    wordsOf (launchCommand args) = launchWords args := by
  apply wordsOf_eq
  · exact List.cons_ne_nil _ _
  · simp only [launchWords, List.forall_mem_cons]
    refine ⟨by decide, by decide, by decide, by decide, by decide, by decide, digits_no_space _,
      by decide, digits_no_space _, by decide, digits_no_space _, by decide, codec_no_space _,
      by decide, ?_⟩
    intro w hw
    cases hw
  · obtain ⟨hfront, hfps, hsize, hcodec, hlib⟩ := launch_parts
    have hspace : " ".toList = [' '] := rfl
    unfold launchCommand launchWords libraryPath
    rw [hfront, hfps, hsize, hcodec, hlib]
    simp only [String.toList_append, hspace, List.map_cons, List.map_nil, List.intercalate,
      List.intersperse, List.flatten_cons, List.flatten_nil, List.append_assoc, List.append_nil]

/-- What the host asks for is what the server is configured with. -/
theorem launchCommand_parsed (args : ArgsSnapshot) :
    parseServerArgs (serverArgs (wordsOf (launchCommand args))) =
      { bitrate := args.bitrate
        maxFps := args.maxFps
        maxSize := args.maxSize
        h265 := wantsH265 args.codec
        lib := some libraryPath } := by
  have hargs : serverArgs (launchWords args) =
      ["--bitrate", toString args.bitrate.toNat, "--max-fps", toString args.maxFps.toNat,
        "--max-size", toString args.maxSize.toNat, "--codec",
        if wantsH265 args.codec then "h265" else "h264", libOption ++ libraryPath] := by
    simp [serverArgs, launchWords]
  have hcodec : (eqIgnoreAsciiCase (if wantsH265 args.codec then "h265" else "h264") "h265" ||
      eqIgnoreAsciiCase (if wantsH265 args.codec then "h265" else "h264") "hevc") =
      wantsH265 args.codec := by
    cases wantsH265 args.codec <;> rfl
  rw [wordsOf_launchCommand, hargs, parseServerArgs, parseWords_bitrate, parseWords_maxFps,
    parseWords_maxSize, parseWords_codec, parseWords_lib, hcodec]
  rfl

end DroidMirror.Native
