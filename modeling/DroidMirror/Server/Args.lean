import DroidMirror.Lib.Decimal
import DroidMirror.Server.Config

/-! # The server's command line

`parse_server_args` in `crates/server/src/control.rs`: one pass over the words,
where an option that is understood takes the next word with it and anything else
is skipped. -/
namespace DroidMirror.Server
open DroidMirror.Lib.Decimal

/-- `str::eq_ignore_ascii_case`. -/
def eqIgnoreAsciiCase (a b : String) : Bool :=
  a.toList.map Char.toLower == b.toList.map Char.toLower

def libOption : String := "--lib="

/-- The configuration after one word, and whether the word after it is taken as its value. -/
def parseWord (cfg : ServerConfig) (a : String) (next : Option String) : ServerConfig × Bool :=
  if a = "--bitrate" then
    match next.bind fun s => parseUnsigned 32 s.toList with
    | some v => ({ cfg with bitrate := UInt32.ofNat v }, true)
    | none => (cfg, false)
  else if a = "--max-fps" then
    match next.bind fun s => parseUnsigned 32 s.toList with
    | some v => ({ cfg with maxFps := UInt32.ofNat v }, true)
    | none => (cfg, false)
  else if a = "--max-size" then
    match next.bind fun s => parseUnsigned 16 s.toList with
    | some v => ({ cfg with maxSize := UInt16.ofNat v }, true)
    | none => (cfg, false)
  else if a = "--codec" then
    match next with
    | some v => ({ cfg with h265 := eqIgnoreAsciiCase v "h265" || eqIgnoreAsciiCase v "hevc" }, true)
    | none => (cfg, false)
  else if libOption.toList.isPrefixOf a.toList then
    ({ cfg with lib := some (String.ofList (a.toList.drop libOption.length)) }, false)
  else (cfg, false)

/-- The loop over the words; `taken` skips the one that was the value of the last. -/
def parseWords (cfg : ServerConfig) : Bool → List String → ServerConfig
  | _, [] => cfg
  | true, _ :: rest => parseWords cfg false rest
  | false, a :: rest =>
    let (cfg, taken) := parseWord cfg a rest.head?
    parseWords cfg taken rest

def parseServerArgs (args : List String) : ServerConfig := parseWords .default false args

example : parseServerArgs ["--bitrate", "100", "--codec", "h265", "--lib=/so"] =
    { ServerConfig.default with bitrate := 100, h265 := true, lib := some "/so" } := by decide

/-! ## One option and its value -/

section
variable (cfg : ServerConfig) (rest : List String)

theorem parseWords_bitrate (v : UInt32) :
    parseWords cfg false ("--bitrate" :: toString v.toNat :: rest) =
      parseWords { cfg with bitrate := v } false rest := by
  have hv := parseUnsigned_toDigits v.toNat_lt
  simp [parseWords, parseWord, hv]

theorem parseWords_maxFps (v : UInt32) :
    parseWords cfg false ("--max-fps" :: toString v.toNat :: rest) =
      parseWords { cfg with maxFps := v } false rest := by
  have hv := parseUnsigned_toDigits v.toNat_lt
  simp [parseWords, parseWord, hv]

theorem parseWords_maxSize (v : UInt16) :
    parseWords cfg false ("--max-size" :: toString v.toNat :: rest) =
      parseWords { cfg with maxSize := v } false rest := by
  have hv := parseUnsigned_toDigits v.toNat_lt
  simp [parseWords, parseWord, hv]

theorem parseWords_codec (v : String) :
    parseWords cfg false ("--codec" :: v :: rest) =
      parseWords { cfg with h265 := eqIgnoreAsciiCase v "h265" || eqIgnoreAsciiCase v "hevc" }
        false rest := by
  simp [parseWords, parseWord]

/-- No other option starts like the library's. -/
theorem libOption_ne {o : String} (h : libOption.toList.isPrefixOf o.toList = false) (path : String) :
    libOption ++ path ≠ o := by
  rintro rfl
  rw [String.toList_append, List.isPrefixOf_iff_prefix.mpr (List.prefix_append _ _)] at h
  cases h

theorem parseWords_lib (path : String) :
    parseWords cfg false ((libOption ++ path) :: rest) =
      parseWords { cfg with lib := some path } false rest := by
  have hpre : libOption.toList.isPrefixOf (libOption ++ path).toList = true := by
    rw [String.toList_append]
    exact List.isPrefixOf_iff_prefix.mpr (List.prefix_append _ _)
  have hpath : String.ofList ((libOption ++ path).toList.drop libOption.length) = path := by
    rw [String.toList_append, ← String.length_toList, List.drop_left, String.ofList_toList]
  have hword : parseWord cfg (libOption ++ path) rest.head? = ({ cfg with lib := some path }, false) := by
    unfold parseWord
    rw [if_neg (libOption_ne rfl path), if_neg (libOption_ne rfl path),
      if_neg (libOption_ne rfl path), if_neg (libOption_ne rfl path), if_pos hpre, hpath]
  rw [parseWords, hword]

end

end DroidMirror.Server
