import Showreel.Document
import Showreel.Text.Real

/-!
# Reading documents from JSON

Each reader takes characters and returns what it has read with the characters that are left. A
number without point and exponent is an integer of any size, any other number is the nearest double.
A key that comes again replaces the value of its first place.

This is the JSON that the renderer reads configurations and storyboards from.
-/

namespace Showreel.Json

def skipBlanks (cs : List Char) : List Char :=
  cs.dropWhile fun c => c = ' ' ∨ c = '\n' ∨ c = '\r' ∨ c = '\t'

/-- Skips a given beginning. -/
def skipWord? (word : String) (cs : List Char) : Option (List Char) :=
  if word.toList.isPrefixOf cs then some (cs.drop word.length) else none

def takeDigits (cs : List Char) : List Char × List Char :=
  (cs.takeWhile Char.isDigit, cs.dropWhile Char.isDigit)

def exponent? (cs : List Char) : Option (Int × List Char) :=
  match cs with
  | e :: rest =>
    if e = 'e' ∨ e = 'E' then
      let (negative, rest) := match rest with
        | '-' :: rest => (true, rest)
        | '+' :: rest => (false, rest)
        | rest => (false, rest)
      let (ds, rest) := takeDigits rest
      if ds.isEmpty then none
      else some (Double.signed negative (Text.digitsValue ds), rest)
    else none
  | [] => none

def unsigned? (negative : Bool) (cs : List Char) : Option (Number × List Char) :=
  let (whole, rest) := takeDigits cs
  if whole.isEmpty then none
  else
    let (fraction, rest) := match rest with
      | '.' :: more =>
        let (ds, after) := takeDigits more
        if ds.isEmpty then ([], rest) else (ds, after)
      | rest => ([], rest)
    match exponent? rest, fraction with
    | none, [] => some (.int (Double.signed negative (Text.digitsValue whole)), rest)
    | none, ds =>
      some (.double (Decimal.read negative (Text.digitsValue (whole ++ ds)) (-ds.length)), rest)
    | some (e, rest), ds =>
      some (.double (Decimal.read negative (Text.digitsValue (whole ++ ds)) (e - ds.length)), rest)

def number? (cs : List Char) : Option (Number × List Char) :=
  match cs with
  | '-' :: rest => unsigned? true rest
  | cs => unsigned? false cs

def hexValue? (c : Char) : Option Nat :=
  if c.isDigit then some (c.toNat - 48)
  else if 'a' ≤ c ∧ c ≤ 'f' then some (c.toNat - 87)
  else if 'A' ≤ c ∧ c ≤ 'F' then some (c.toNat - 55)
  else none

def unit? : List Char → Option (Nat × List Char)
  | a :: b :: c :: d :: rest => do
    let high := (← hexValue? a) * 16 + (← hexValue? b)
    let low := (← hexValue? c) * 16 + (← hexValue? d)
    some (high * 256 + low, rest)
  | _ => none

/-- The character of one or two UTF-16 units; a unit without its partner gives the replacement
character. -/
def unitChar (n : Nat) (cs : List Char) : Char × List Char :=
  let lone := (if 55296 ≤ n ∧ n < 57344 then Char.ofNat 65533 else Char.ofNat n, cs)
  match cs with
  | '\\' :: 'u' :: rest =>
    match unit? rest with
    | some (m, rest) =>
      if 55296 ≤ n ∧ n < 56320 ∧ 56320 ≤ m ∧ m < 57344 then
        (Char.ofNat (65536 + (n - 55296) * 1024 + (m - 56320)), rest)
      else lone
    | none => lone
  | _ => lone

def shortEscape? (c : Char) : Option Char :=
  [('"', '"'), ('\\', '\\'), ('/', '/'), ('b', Char.ofNat 8), ('f', Char.ofNat 12), ('n', '\n'),
    ('r', '\r'), ('t', '\t')].lookup c

/-- The characters up to the closing quote; `read` holds those read so far, last first. -/
def textRest? : Nat → List Char → List Char → Option (String × List Char)
  | 0, _, _ => none
  | fuel + 1, read, cs =>
    match cs with
    | '"' :: rest => some (String.ofList read.reverse, rest)
    | '\\' :: 'u' :: rest =>
      match unit? rest with
      | some (n, rest) =>
        let (c, rest) := unitChar n rest
        textRest? fuel (c :: read) rest
      | none => none
    | '\\' :: e :: rest =>
      match shortEscape? e with
      | some c => textRest? fuel (c :: read) rest
      | none => none
    | c :: rest => textRest? fuel (c :: read) rest
    | [] => none

def text? (cs : List Char) : Option (String × List Char) :=
  match cs with
  | '"' :: rest => textRest? (rest.length + 1) [] rest
  | _ => none

/-- The words that stand for a value. -/
def words : List (String × Document) :=
  [("null", .null), ("true", .flag true), ("false", .flag false),
    ("NaN", .double Double.nan),
    ("Infinity", .double (Double.infinity false)),
    ("-Infinity", .double (Double.infinity true))]

def word? (cs : List Char) : Option (Document × List Char) :=
  words.findSome? fun (word, v) => (skipWord? word cs).map fun rest => (v, rest)

mutual

/-- A value. Every reader passes on less fuel than it has; the number of characters is enough. -/
def value? : Nat → List Char → Option (Document × List Char)
  | 0, _ => none
  | fuel + 1, cs =>
    match skipBlanks cs with
    | '[' :: rest =>
      match skipBlanks rest with
      | ']' :: rest => some (.list [], rest)
      | rest => items? fuel [] rest
    | '\x7b' :: rest =>
      match skipBlanks rest with
      | '\x7d' :: rest => some (.mapping [], rest)
      | rest => entries? fuel [] rest
    | '"' :: rest => (text? ('"' :: rest)).map fun (s, rest) => (.text s, rest)
    | cs => (word? cs).orElse fun _ => (number? cs).map fun (x, rest) => (x.document, rest)

/-- The items of a list up to the closing bracket; `read` holds those read so far, last first. -/
def items? : Nat → List Document → List Char → Option (Document × List Char)
  | 0, _, _ => none
  | fuel + 1, read, cs =>
    match value? fuel cs with
    | none => none
    | some (v, rest) =>
      match skipBlanks rest with
      | ',' :: rest => items? fuel (v :: read) rest
      | ']' :: rest => some (.list (v :: read).reverse, rest)
      | _ => none

/-- The entries of a mapping up to the closing brace, put into those read so far. -/
def entries? : Nat → List (String × Document) → List Char → Option (Document × List Char)
  | 0, _, _ => none
  | fuel + 1, read, cs =>
    match text? (skipBlanks cs) with
    | none => none
    | some (key, rest) =>
      match skipBlanks rest with
      | ':' :: rest =>
        match value? fuel rest with
        | none => none
        | some (v, rest) =>
          match skipBlanks rest with
          | ',' :: rest => entries? fuel (Document.put key v read) rest
          | '\x7d' :: rest => some (.mapping (Document.put key v read), rest)
          | _ => none
      | _ => none

end

/-- The document that a text writes. -/
def parse? (s : String) : Option Document :=
  let cs := s.toList
  match value? (2 * cs.length + 1) cs with
  | some (v, rest) => if (skipBlanks rest).isEmpty then some v else none
  | none => none

end Showreel.Json
