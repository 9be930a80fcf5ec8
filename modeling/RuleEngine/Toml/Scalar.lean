/-
  RuleEngine/Toml/Scalar.lean
  ===========================
  **Strings, numbers and dates as they are written.**

  Each reader takes the longest form of its kind that some characters start with,
  and gives the value with the characters left; what may follow is left to the
  grammar around it.
-/
import RuleEngine.Toml.Value
import RuleEngine.Decimal.Reader
import RuleEngine.Text.Hex

namespace RuleEngine.Toml

abbrev Step (α : Type) := Except Fault (α × List Char)

/-! ### Strings -/

/-- A character that a string or comment may hold: no control but the tab. -/
def isTextChar (c : Char) : Bool := c == '\t' || (' ' ≤ c && c != '\x7f')

def lineBreak? : List Char → Option (List Char)
  | '\n' :: rest => some rest
  | '\r' :: '\n' :: rest => some rest
  | _ => none

def isSpace (c : Char) : Bool := c == ' ' || c == '\t'

/-- The characters after the spaces, tabs and line breaks that some start with. -/
def afterBlank : List Char → List Char
  | '\r' :: '\n' :: rest => afterBlank rest
  | c :: rest => if isSpace c || c == '\n' then afterBlank rest else c :: rest
  | [] => []

def shortEscape? : Char → Option Char
  | 'b' => some '\x08'
  | 't' => some '\t'
  | 'n' => some '\n'
  | 'f' => some '\x0c'
  | 'r' => some '\r'
  | '"' => some '"'
  | '\\' => some '\\'
  | _ => none

/-- The character that an escape stands for, from what follows its backslash, and
    how many characters follow it. -/
def escape? : List Char → Option (Char × Nat)
  | [] => none
  | letter :: rest =>
    let digits := if letter == 'u' then 4 else if letter == 'U' then 8 else 0
    if digits = 0 then (shortEscape? letter).map (·, 1)
    else if (rest.take digits).length = digits then
      ((Text.hexNumber? (rest.take digits)).bind Text.charOf?).map (·, 1 + digits)
    else none

def consText (c : Char) : Step (List Char) → Step (List Char)
  | .ok (text, rest) => .ok (c :: text, rest)
  | .error e => .error e

/-- A string of one line after its opening quote; `skip` characters belong to an
    escape. -/
def lineString (quote : Char) : Nat → List Char → Step (List Char)
  | _, [] => .error .unterminated
  | skip + 1, _ :: rest => lineString quote skip rest
  | 0, c :: rest =>
    if c == quote then .ok ([], rest)
    else if c == '\\' && quote == '"' then
      match escape? rest with
      | some (x, n) => consText x (lineString quote n rest)
      | none => .error .badEscape
    else if isTextChar c then consText c (lineString quote 0 rest)
    else .error .malformed

/-- A string of several lines after its opening quotes.  `skip` characters belong to
    what was read already.  Up to two quotes are text; of a longer run the last
    three close the string. -/
def blockString (quote : Char) : Nat → List Char → Step (List Char)
  | _, [] => .error .unterminated
  | skip + 1, _ :: rest => blockString quote skip rest
  | 0, c :: rest =>
    if c == quote then
      let run := 1 + (rest.takeWhile (· == quote)).length
      if run < 3 then consText c (blockString quote 0 rest)
      else
        let extra := min (run - 3) 2
        .ok (List.replicate extra quote, rest.drop (extra + 2))
    else if c == '\\' && quote == '"' then
      let line := rest.dropWhile isSpace
      if (lineBreak? line).isSome then
        blockString quote (rest.length - (afterBlank line).length) rest
      else
        match escape? rest with
        | some (x, n) => consText x (blockString quote n rest)
        | none => .error .badEscape
    else if c == '\r' then
      if rest.head? == some '\n' then blockString quote 0 rest else .error .malformed
    else if c == '\n' || isTextChar c then consText c (blockString quote 0 rest)
    else .error .malformed

/-- The string that some characters start with, one of several lines only where
    `wide` holds. -/
def readString (wide : Bool) : List Char → Step String
  | [] => .error .malformed
  | quote :: rest =>
    if !(quote == '"' || quote == '\'') then .error .malformed
    else
      let body := rest.drop 2
      let read :=
        if wide && rest.take 2 == [quote, quote] then
          blockString quote 0 ((lineBreak? body).getD body)
        else lineString quote 0 rest
      read.map fun (text, rest) => (String.ofList text, rest)

/-! ### Numbers -/

/-- Digits of a kind, with single underscores between them, and the rest; none if no
    digit stands first or an underscore has none after it. -/
def groupedDigits? (isDigit : Char → Bool) : List Char → Option (List Char × List Char)
  | c :: rest =>
    if !isDigit c then none
    else
      match rest with
      | '_' :: d :: more =>
        if isDigit d then (groupedDigits? isDigit (d :: more)).map fun (ds, r) => (c :: ds, r)
        else none
      | '_' :: [] => none
      | d :: more =>
        if isDigit d then (groupedDigits? isDigit (d :: more)).map fun (ds, r) => (c :: ds, r)
        else some ([c], d :: more)
      | [] => some ([c], [])
  | [] => none

def signed (cs : List Char) : List Char × List Char :=
  match cs with
  | '-' :: rest => (['-'], rest)
  | '+' :: rest => ([], rest)
  | rest => ([], rest)

/-- A whole decimal number without a leading zero, its sign in front. -/
def whole? (cs : List Char) : Option (List Char × List Char) :=
  let (sign, rest) := signed cs
  match rest with
  | '0' :: more => some (sign ++ ['0'], more)
  | rest => (groupedDigits? Char.isDigit rest).map fun (ds, r) => (sign ++ ds, r)

def exponent? : List Char → Option (List Char × List Char)
  | c :: rest =>
    if c == 'e' || c == 'E' then
      let (sign, rest) := signed rest
      (groupedDigits? Char.isDigit rest).map fun (ds, r) => ('e' :: sign ++ ds, r)
    else none
  | [] => none

/-- The fraction of a float with an exponent, if one follows. -/
def fraction? : List Char → Option (List Char × List Char)
  | '.' :: rest =>
    (groupedDigits? Char.isDigit rest).map fun (ds, r) =>
      match exponent? r with
      | some (e, r) => ('.' :: ds ++ e, r)
      | none => ('.' :: ds, r)
  | _ => none

/-- The float of digits that some characters start with. -/
def float? (cs : List Char) : Option (Step Float) :=
  (whole? cs).bind fun (w, rest) =>
    ((exponent? rest).orElse fun _ => fraction? rest).map fun (part, rest) =>
      match Decimal.readFloat? (String.ofList (w ++ part)) with
      | some x =>
        if x == (Decimal.Value.infinite false).toFloat then .error .outOfRange else .ok (x, rest)
      | none => .error .malformed

/-- The infinity or no-number word that some characters start with. -/
def floatWord? (cs : List Char) : Option (Float × List Char) :=
  let (sign, rest) := signed cs
  if rest.take 3 == "inf".toList then
    some ((Decimal.Value.infinite (!sign.isEmpty)).toFloat, rest.drop 3)
  else if rest.take 3 == "nan".toList then some (Decimal.notNumber, rest.drop 3)
  else none

/-- An integer, if 64 bits hold it. -/
def boundedInteger (i : Int) (rest : List Char) : Step Int64 :=
  if Decimal.fitsInt64 i then .ok (Int64.ofInt i, rest) else .error .outOfRange

/-- An integer of a radix, after its marker. -/
def radixInteger (radix : Nat) (cs : List Char) : Step Int64 :=
  match groupedDigits? (fun c => (Text.hexValue? c).any (· < radix)) cs with
  | some (ds, rest) =>
    boundedInteger (ds.foldl (fun n d => n * radix + (Text.hexValue? d).getD 0) 0) rest
  | none => .error .malformed

def readInteger (cs : List Char) : Step Int64 :=
  match cs with
  | '0' :: 'x' :: rest => radixInteger 16 rest
  | '0' :: 'o' :: rest => radixInteger 8 rest
  | '0' :: 'b' :: rest => radixInteger 2 rest
  | cs =>
    match whole? cs with
    | some ('-' :: ds, rest) => boundedInteger (-(Decimal.digitsValue 0 ds : Int)) rest
    | some (ds, rest) => boundedInteger (Decimal.digitsValue 0 ds) rest
    | none => .error .malformed

/-! ### Dates and times -/

/-- A number of exactly `count` digits in a range. -/
def fixedNumber? (count low high : Nat) (cs : List Char) : Option (Nat × List Char) :=
  (Decimal.readNat? (cs.take count)).bind fun n =>
    if (cs.take count).length = count && low ≤ n && n ≤ high then some (n, cs.drop count) else none

def afterSign? (sign : Char) : List Char → Option (List Char)
  | c :: rest => if c == sign then some rest else none
  | [] => none

def date? (cs : List Char) : Option (Date × List Char) := do
  let (year, cs) ← fixedNumber? 4 0 9999 cs
  let (month, cs) ← fixedNumber? 2 1 12 (← afterSign? '-' cs)
  let (day, cs) ← fixedNumber? 2 1 31 (← afterSign? '-' cs)
  if daysInMonth year month < day then none else some (⟨year, month, day⟩, cs)

/-- The fraction of a second that some characters start with, cut to nine digits. -/
def secondFraction? (cs : List Char) : Option (Nat × List Char) := do
  let rest ← afterSign? '.' cs
  let digits := rest.takeWhile Char.isDigit
  if digits.isEmpty then none
  else
    let kept := digits.take 9
    some (Decimal.digitsValue 0 kept * Nat.pow 10 (9 - kept.length), rest.drop digits.length)

/-- How large the parts of a time may be. -/
structure TimeBounds where
  hour : Nat
  offsetHour : Nat
  offsetMinute : Nat
  /-- All the minutes of an offset. -/
  offset : Nat

/-- The bounds of a time that stands in a document as it is. -/
def TimeBounds.plain : TimeBounds := ⟨23, 23, 59, 1439⟩

/-- The bounds of a time that is given as a string: a whole day is within them. -/
def TimeBounds.quoted : TimeBounds := ⟨24, 99, 99, 1440⟩

def time? (bounds : TimeBounds) (cs : List Char) : Option (Time × List Char) := do
  let (hour, cs) ← fixedNumber? 2 0 bounds.hour cs
  let (minute, cs) ← fixedNumber? 2 0 59 (← afterSign? ':' cs)
  let (second, cs) ← fixedNumber? 2 0 60 (← afterSign? ':' cs)
  match secondFraction? cs with
  | some (nanosecond, cs) => some ({ hour, minute, second, nanosecond }, cs)
  | none => some ({ hour, minute, second }, cs)

def offset? (bounds : TimeBounds) (cs : List Char) : Option (Offset × List Char) :=
  match cs with
  | 'Z' :: rest | 'z' :: rest => some (.zulu, rest)
  | sign :: rest =>
    if sign == '+' || sign == '-' then do
      let (hours, rest) ← fixedNumber? 2 0 bounds.offsetHour rest
      let (minutes, rest) ← fixedNumber? 2 0 bounds.offsetMinute (← afterSign? ':' rest)
      let count := hours * 60 + minutes
      if bounds.offset < count then none
      else some (.minutes (if sign == '-' then -(count : Int) else count), rest)
    else none
  | [] => none

def dateTime? (bounds : TimeBounds) (cs : List Char) : Option (DateTime × List Char) :=
  match date? cs with
  | some (date, rest) =>
    let time := match rest with
      | sign :: more =>
        if sign == 'T' || sign == 't' || sign == ' ' then time? bounds more else none
      | [] => none
    match time with
    | some (time, rest) =>
      match offset? bounds rest with
      | some (offset, rest) => some ({ date? := date, time? := time, offset? := offset }, rest)
      | none => some ({ date? := date, time? := time }, rest)
    | none => some ({ date? := date }, rest)
  | none => (time? bounds cs).map fun (time, rest) => ({ time? := some time }, rest)

def DateTime.ofText? (s : String) : Option DateTime :=
  match dateTime? .quoted s.toList with
  | some (d, []) => some d
  | _ => none

end RuleEngine.Toml
