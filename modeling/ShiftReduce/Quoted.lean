import ShiftReduce.Unicode.DefaultIgnorable
import ShiftReduce.Unicode.ExtendingMark
import ShiftReduce.Unicode.Unprintable

namespace ShiftReduce.Quoted

def byNumber (c : Char) : List Char :=
  ['\\', 'u', Char.ofNat 123] ++ Nat.toDigits 16 c.toNat ++ [Char.ofNat 125]

def isHidden (c : Char) : Bool :=
  Unicode.isExtendingMark c || Unicode.isDefaultIgnorable c || Unicode.isUnprintable c

/-- How one character stands inside quotes. Quotes and backslashes come after a backslash, and a
few control characters have names. Hidden characters are written by number. -/
def escape (c : Char) : List Char :=
  if c = '"' then ['\\', '"']
  else if c = '\\' then ['\\', '\\']
  else if c = '\n' then ['\\', 'n']
  else if c = '\r' then ['\\', 'r']
  else if c = '\t' then ['\\', 't']
  else if c.toNat = 0 then ['\\', '0']
  else if isHidden c then byNumber c
  else [c]

def render (text : String) : String :=
  String.ofList ('"' :: text.toList.flatMap escape ++ ['"'])

end ShiftReduce.Quoted
