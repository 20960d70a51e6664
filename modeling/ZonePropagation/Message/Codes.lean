import ZonePropagation.Text.Blank
import ZonePropagation.Text.Numeral
/-!
Record types, record classes, operation codes and response codes.

Types and classes are 16-bit codes, some of which have mnemonics; a type without one is written
`TYPE` and its number.
-/

namespace ZonePropagation

structure RecordType where
  code : UInt16
deriving DecidableEq, Repr, Inhabited

namespace RecordType

def a : RecordType := ⟨1⟩

def soa : RecordType := ⟨6⟩

def tsig : RecordType := ⟨250⟩

def axfr : RecordType := ⟨252⟩

/-- Types of stored records and their mnemonics. -/
def stored : List (String × UInt16) := [
  ("A", 1), ("NS", 2), ("CNAME", 5), ("SOA", 6), ("PTR", 12), ("HINFO", 13), ("MX", 15),
  ("TXT", 16), ("AAAA", 28), ("SRV", 33), ("NAPTR", 35), ("DS", 43), ("SSHFP", 44),
  ("RRSIG", 46), ("NSEC", 47), ("DNSKEY", 48), ("TLSA", 52), ("SPF", 99), ("CAA", 257)]

/-- Types that occur in questions and signatures only. -/
def requested : List (String × UInt16) := [
  ("TSIG", 250), ("IXFR", 251), ("AXFR", 252), ("ANY", 255)]

def mnemonic? (type : RecordType) : Option String :=
  ((stored ++ requested).find? fun entry => entry.2 == type.code).map Prod.fst

/-- The text form: the mnemonic, or `TYPE` and the code. -/
def text (type : RecordType) : String :=
  type.mnemonic?.getD s!"TYPE{type.code}"

/-- The type an operator's spelling names: the mnemonic of a stored type, or any code after
`TYPE`, in either case and with blanks around it. -/
def ofText? (spelling : String) : Option RecordType :=
  let upper := (Text.trim spelling).toUpper
  match stored.find? fun entry => entry.1 == upper with
  | some entry => some ⟨entry.2⟩
  | none =>
      match upper.toList with
      | 'T' :: 'Y' :: 'P' :: 'E' :: digits =>
          (Text.uint16? (String.ofList digits)).map RecordType.mk
      | _ => none

end RecordType

structure RecordClass where
  code : UInt16
deriving DecidableEq, Repr, Inhabited

namespace RecordClass

def internet : RecordClass := ⟨1⟩

def any : RecordClass := ⟨255⟩

def named : List (String × UInt16) := [
  ("IN", 1), ("CS", 2), ("CH", 3), ("HS", 4), ("NONE", 254), ("ANY", 255)]

def mnemonic? (recordClass : RecordClass) : Option String :=
  (named.find? fun entry => entry.2 == recordClass.code).map Prod.fst

end RecordClass

def Opcode.query : UInt8 := 0

def Opcode.notify : UInt8 := 4

inductive ResponseCode where
  | noError
  | formatError
  | serverFailure
  | nameError
  | notImplemented
  | refused
  | notAuth
deriving DecidableEq, Repr

namespace ResponseCode

def code : ResponseCode → UInt8
  | .noError => 0
  | .formatError => 1
  | .serverFailure => 2
  | .nameError => 3
  | .notImplemented => 4
  | .refused => 5
  | .notAuth => 9

def all : List ResponseCode :=
  [.noError, .formatError, .serverFailure, .nameError, .notImplemented, .refused, .notAuth]

def ofCode? (value : UInt8) : Option ResponseCode :=
  all.find? fun meaning => meaning.code == value

def name : ResponseCode → String
  | .noError => "NoError"
  | .formatError => "FormatError"
  | .serverFailure => "ServerFailure"
  | .nameError => "NameError"
  | .notImplemented => "NotImplemented"
  | .refused => "Refused"
  | .notAuth => "NotAuth"

/-- The server says that it does not have the zone. -/
def meansNoZone : ResponseCode → Bool
  | .nameError | .refused | .serverFailure => true
  | _ => false

end ResponseCode

end ZonePropagation
