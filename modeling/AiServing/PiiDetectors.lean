import AiServing.PatternSearch
import AiServing.UnicodeClasses
import Mathlib.Data.Finset.Basic

namespace AiServing
open Backtrack Pattern
set_option autoImplicit true

/-- `ENABLED_TYPES`. -/
inductive PiiType
  | rrn | card | phone | email
  deriving DecidableEq, Repr

def PiiType.name : PiiType → String
  | rrn => "rrn"
  | card => "card"
  | phone => "phone"
  | email => "email"

def PiiType.upper : PiiType → String
  | rrn => "RRN"
  | card => "CARD"
  | phone => "PHONE"
  | email => "EMAIL"

def PiiType.ofName? (s : String) : Option PiiType :=
  [rrn, card, phone, email].find? fun t => t.name = s

def DETECTOR_PRIORITY : List PiiType := [.email, .rrn, .card, .phone]

def isLetter (c : Char) : Bool := 'A' ≤ c && c ≤ 'Z' || 'a' ≤ c && c ≤ 'z'

/-- `[A-Za-z0-9._%+-]` -/
def isLocalChar (c : Char) : Bool := isLetter c || isAsciiDigit c || "._%+-".toList.contains c

/-- `[A-Za-z0-9.-]` -/
def isDomainChar (c : Char) : Bool := isLetter c || isAsciiDigit c || ".-".toList.contains c

/-- `[-\s]` -/
def isDashOrSpace (c : Char) : Bool := c == '-' || isSpace c

/-- `[- ]` -/
def isCardSeparator (c : Char) : Bool := c == '-' || c == ' '

/-- `[1-8]` -/
def isGenderDigit (c : Char) : Bool := '1' ≤ c && c ≤ '8'

/-- `[016789]` -/
def isMobileDigit (c : Char) : Bool := "016789".toList.contains c

def lit (c : Char) : Pattern Char := cls (· == c)

def digits (lo hi : Nat) : Pattern Char := rep (cls isDecimal) lo hi

def optional (p : Char → Bool) : Pattern Char := rep (cls p) 0 1

def EMAIL_RE : Pattern Char :=
  seq (many isLocalChar 1) <| seq (lit '@') <| seq (many isDomainChar 1) <| seq (lit '.') <|
    many isLetter 2

/-- `RRN_RE` between its two word boundaries. -/
def rrnBody : Pattern Char :=
  seq (group 1 (digits 2 2)) <| seq (group 2 (digits 2 2)) <| seq (group 3 (digits 2 2)) <|
    seq (optional isDashOrSpace) <| group 4 (seq (cls isGenderDigit) (digits 6 6))

def RRN_RE : Pattern Char := seq (boundary isWord) (seq rrnBody (boundary isWord))

/-- `CARD_RE` between its two digit lookarounds. -/
def cardBody : Pattern Char :=
  seq (rep (seq (cls isDecimal) (optional isCardSeparator)) 12 18) (cls isDecimal)

def CARD_RE : Pattern Char := seq (notBehind isDecimal) (seq cardBody (notAhead isDecimal))

/-- `\d{3,4}[-\s]?\d{4}` -/
def phoneTail : Pattern Char := seq (digits 3 4) (seq (optional isDashOrSpace) (digits 4 4))

/-- `(?:01[016789]|02|0\d{2})[-\s]?` and the tail -/
def domesticPhone : Pattern Char :=
  seq (alt (seq (lit '0') (seq (lit '1') (cls isMobileDigit)))
      (alt (seq (lit '0') (lit '2')) (seq (lit '0') (digits 2 2))))
    (seq (optional isDashOrSpace) phoneTail)

/-- `\+82[-\s]?(?:1[016789]|2|\d{2})[-\s]?` and the tail -/
def internationalPhone : Pattern Char :=
  seq (lit '+') <| seq (lit '8') <| seq (lit '2') <| seq (optional isDashOrSpace) <|
    seq (alt (seq (lit '1') (cls isMobileDigit)) (alt (lit '2') (digits 2 2)))
      (seq (optional isDashOrSpace) phoneTail)

/-- `PHONE_RE` between its two digit lookarounds. -/
def phoneBody : Pattern Char := alt domesticPhone internationalPhone

def PHONE_RE : Pattern Char := seq (notBehind isDecimal) (seq phoneBody (notAhead isDecimal))

structure Candidate where
  start : Nat
  stop : Nat
  piiType : PiiType
  rawValue : Text
  deriving DecidableEq, Repr

def Candidate.ofMatch (text : Text) (t : PiiType) (m : Match) : Candidate :=
  ⟨m.start, m.stop, t, m.group text 0⟩

def isLeapYear (y : Nat) : Bool := y % 4 = 0 && (y % 100 ≠ 0 || y % 400 = 0)

def daysInMonth (y m : Nat) : Nat :=
  if m = 2 then if isLeapYear y then 29 else 28
  else if m = 4 ∨ m = 6 ∨ m = 9 ∨ m = 11 then 30 else 31

/-- `datetime.date(y, m, d)` raises no `ValueError`. -/
def isDate (y m d : Nat) : Bool :=
  1 ≤ y && y ≤ 9999 && 1 ≤ m && m ≤ 12 && 1 ≤ d && d ≤ daysInMonth y m

def validRrnDate (year month day tail : Text) : Bool :=
  let century := if ['1', '2', '5', '6'].contains (tail.headD ' ') then 1900 else 2000
  isDate (century + intOf year) (intOf month) (intOf day)

/-- The doubling step of the Luhn sum: every second digit from the right is doubled. -/
def luhnDigit (index digit : Nat) : Nat :=
  if index % 2 = 1 then if digit * 2 > 9 then digit * 2 - 9 else digit * 2 else digit

def luhnTotal (value : Text) : Nat :=
  (value.reverse.map digitValue).zipIdx.foldl (fun total d => total + luhnDigit d.2 d.1) 0

def luhnValid (value : Text) : Bool := luhnTotal value % 10 = 0

def rrnCandidates (text : Text) : List Candidate :=
  (RRN_RE.finditer text).filterMap fun m =>
    if validRrnDate (m.group text 1) (m.group text 2) (m.group text 3) (m.group text 4)
    then some (.ofMatch text .rrn m) else none

/-- `re.sub(r"[- ]", "", value)` -/
def cardDigits (value : Text) : Text := value.filter fun c => !isCardSeparator c

def cardAccepts (value : Text) : Bool :=
  13 ≤ (cardDigits value).length && (cardDigits value).length ≤ 19 && luhnValid (cardDigits value)

def cardCandidates (text : Text) : List Candidate :=
  (CARD_RE.finditer text).filterMap fun m =>
    if cardAccepts (m.group text 0) then some (.ofMatch text .card m) else none

def phoneCandidates (text : Text) : List Candidate :=
  (PHONE_RE.finditer text).map (.ofMatch text .phone)

def emailCandidates (text : Text) : List Candidate :=
  (EMAIL_RE.finditer text).map (.ofMatch text .email)

def DETECTORS : PiiType → Text → List Candidate
  | .email => emailCandidates
  | .rrn => rrnCandidates
  | .card => cardCandidates
  | .phone => phoneCandidates

end AiServing
