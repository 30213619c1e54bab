import SecDetector.Usage.Number

/-!
# What the backend thread writes

`dump` is the text that `json11` makes of a value, and `backendThread` is what the resource file
gets of it: the text without its backslashes and without the quotes around it, if there are any.

In `dump` every backslash is part of an escape.  Without it, what is left of the escape is text
like any other: `\n` becomes the letter `n`, a quote is a quote that ends the string, and nothing
is left of a backslash (`heard` in the module on reading back).
-/

namespace SecDetector.Usage

open SecDetector.Lib

/-! ## Serialization -/

def hexDigit (n : ℕ) : UInt8 := UInt8.ofNat (if n < 10 then 0x30 + n else 0x57 + n)

/-- A byte of a string, the line separators apart. -/
def escapeByte (ch : UInt8) : Bytes :=
  if ch = 0x5c then str "\\\\"
  else if ch = 0x22 then str "\\\""
  else if ch = 0x08 then str "\\b"
  else if ch = 0x0c then str "\\f"
  else if ch = 0x0a then str "\\n"
  else if ch = 0x0d then str "\\r"
  else if ch = 0x09 then str "\\t"
  else if ch ≤ 0x1f then
    str "\\u00" ++ [hexDigit (ch.toNat / 16), hexDigit (ch.toNat % 16)]
  else [ch]

/-- The bytes of a string.  U+2028 and U+2029 have three bytes each in UTF-8. -/
def escape : Bytes → Bytes
  | [] => []
  | 0xe2 :: 0x80 :: 0xa8 :: s => str "\\u2028" ++ escape s
  | 0xe2 :: 0x80 :: 0xa9 :: s => str "\\u2029" ++ escape s
  | ch :: s => escapeByte ch ++ escape s

def dumpString (s : Bytes) : Bytes := 0x22 :: escape s ++ [0x22]

variable {D : Type} (F : NumberFormat D)

def dumpNumber (x : D) : Bytes := if F.isfinite x then F.format x else str "null"

/-- What is written in front of a value in an array or an object. -/
def separator (first : Bool) : Bytes := if first then [] else str ", "

namespace Json

mutual

def dump : Json D → Bytes
  | null => str "null"
  | bool value => if value then str "true" else str "false"
  | number value => dumpNumber F value
  | string value => dumpString value
  | array values => 0x5b :: dumpItems true values ++ [0x5d]
  | object values => 0x7b :: dumpMembers true values ++ [0x7d]

def dumpItems (first : Bool) : List (Json D) → Bytes
  | [] => []
  | v :: rest => separator first ++ (v.dump ++ dumpItems false rest)

def dumpMembers (first : Bool) : List (Bytes × Json D) → Bytes
  | [] => []
  | (k, v) :: rest =>
      separator first ++ (dumpString k ++ (str ": " ++ (v.dump ++ dumpMembers false rest)))

end

end Json

/-! ## The file -/

/-- `json.erase(std::remove(json.begin(), json.end(), '\\'), json.end())`. -/
def eraseBackslashes (json : Bytes) : Bytes := json.filter (· ≠ 0x5c)

def dropFrontQuote (json : Bytes) : Bytes :=
  if json.head? = some 0x22 then json.tail else json

def dropBackQuote (json : Bytes) : Bytes :=
  if json.getLast? = some 0x22 then json.dropLast else json

/-- What the thread writes for the value that `get_data` gives it. -/
def backendThread (data : Json D) : Bytes :=
  dropBackQuote (dropFrontQuote (eraseBackslashes (data.dump F)))

/-- Around an object there are no quotes. -/
theorem backendThread_object (values : List (Bytes × Json D)) :
    backendThread F (.object values) = eraseBackslashes ((Json.object values).dump F) := by
  have hfront : eraseBackslashes ((Json.object values).dump F) =
      0x7b :: eraseBackslashes (Json.dumpMembers F true values) ++ [0x7d] := by
    simp [Json.dump, eraseBackslashes]
  rw [backendThread, hfront, dropFrontQuote, if_neg (by simp), dropBackQuote, List.getLast?_concat,
    if_neg (by simp)]

end SecDetector.Usage
