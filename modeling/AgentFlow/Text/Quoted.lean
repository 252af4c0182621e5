import AgentFlow.Text.Literal
import AgentFlow.Text.Printable

/-!
# Quoted text in messages

Messages quote a text so that a reader can tell its ends and its invisible characters: in single
quotes, or in double quotes if it holds single ones only, with unprintable characters as hexadecimal
escapes.
-/

namespace AgentFlow.Text

/-- The quote of a text: double if it holds a single quote and no double one. -/
def quoteFor (cs : List Char) : Char :=
  if cs.contains '\x27' && !cs.contains '\x22' then '\x22' else '\x27'

def quoteChar (quote c : Char) : List Char :=
  let n := c.toNat
  if c == quote || c == '\x5c' then ['\x5c', c]
  else if c == '\n' then ['\x5c', 'n']
  else if c == '\r' then ['\x5c', 'r']
  else if c == '\t' then ['\x5c', 't']
  else if isPrintable c then [c]
  else if n < 0x100 then '\x5c' :: 'x' :: hexDigits 2 n
  else if n < 0x10000 then '\x5c' :: 'u' :: hexDigits 4 n
  else '\x5c' :: 'U' :: hexDigits 8 n

def quoted (s : String) : String :=
  let cs := s.toList
  let quote := quoteFor cs
  String.ofList (quote :: cs.flatMap (quoteChar quote) ++ [quote])

end AgentFlow.Text
