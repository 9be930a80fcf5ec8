/-
  RuleEngine/Text/Utf8.lean
  =========================
  **Text in bytes.**

  Files and guest memory hold text as UTF-8.  Bytes are decoded one character at a
  time; a run that no character starts with, or that breaks off, is one fault.  The
  strict decoder gives up at a fault, the lenient one writes a replacement
  character for it and goes on after the run.
-/

namespace RuleEngine.Text

def isContinuation (b : UInt8) : Bool := 0x80 ≤ b && b ≤ 0xBF

/-- The bytes that may stand second after a leading byte; they keep out overlong
    forms, surrogates and numbers beyond the last character. -/
def isSecond (lead b : UInt8) : Bool :=
  if lead == 0xE0 then 0xA0 ≤ b && b ≤ 0xBF
  else if lead == 0xED then 0x80 ≤ b && b ≤ 0x9F
  else if lead == 0xF0 then 0x90 ≤ b && b ≤ 0xBF
  else if lead == 0xF4 then 0x80 ≤ b && b ≤ 0x8F
  else isContinuation b

def low6 (b : UInt8) : Nat := b.toNat % 64

/-- The first character of some bytes, none for a fault, and how many bytes after
    the leading one it takes. -/
def decodeStep (lead : UInt8) (rest : List UInt8) : Option Char × Nat :=
  if lead < 0x80 then (some (Char.ofNat lead.toNat), 0)
  else if 0xC2 ≤ lead && lead ≤ 0xDF then
    match rest with
    | b :: _ =>
      if isContinuation b then (some (Char.ofNat ((lead.toNat % 32) * 64 + low6 b)), 1)
      else (none, 0)
    | [] => (none, 0)
  else if 0xE0 ≤ lead && lead ≤ 0xEF then
    match rest with
    | b :: more =>
      if !isSecond lead b then (none, 0)
      else
        match more with
        | c :: _ =>
          if isContinuation c then
            (some (Char.ofNat ((lead.toNat % 16) * 4096 + low6 b * 64 + low6 c)), 2)
          else (none, 1)
        | [] => (none, 1)
    | [] => (none, 0)
  else if 0xF0 ≤ lead && lead ≤ 0xF4 then
    match rest with
    | b :: more =>
      if !isSecond lead b then (none, 0)
      else
        match more with
        | c :: last =>
          if !isContinuation c then (none, 1)
          else
            match last with
            | d :: _ =>
              if isContinuation d then
                (some (Char.ofNat
                  ((lead.toNat % 8) * 262144 + low6 b * 4096 + low6 c * 64 + low6 d)), 3)
              else (none, 2)
            | [] => (none, 2)
        | [] => (none, 1)
    | [] => (none, 0)
  else (none, 0)

/-- The characters of some bytes, each fault as `none`. -/
def decodeAll (bytes : List UInt8) : List (Option Char) :=
  match bytes with
  | [] => []
  | lead :: rest =>
    let (c, taken) := decodeStep lead rest
    c :: decodeAll (rest.drop taken)
termination_by bytes.length
decreasing_by simp only [List.length_drop, List.length_cons]; omega

/-- The text that bytes spell, if they are well formed. -/
def decodeUtf8? (bytes : List UInt8) : Option String :=
  let cs := decodeAll bytes
  if cs.all Option.isSome then some (String.ofList (cs.filterMap id)) else none

/-- The text that bytes spell, with a replacement character for each fault. -/
def decodeLenient (bytes : List UInt8) : String :=
  String.ofList ((decodeAll bytes).map fun c => c.getD '\ufffd')

def encodeUtf8 (s : String) : List UInt8 := s.toUTF8.toList

end RuleEngine.Text
