import AgentFlow.Json.Token
import AgentFlow.Text.Pieces
import AgentFlow.Text.Utf8

/-!
# Addresses

The address of a request has a path and perhaps a query. In both, a percent sign and two hexadecimal
digits stand for a byte of the UTF-8 encoding. The path is decoded twice, once on either side of the
connection, and the query once.
-/

namespace AgentFlow.Http

open Text (cutAt pieces)

/-- The bytes that an encoded text stands for. A percent sign without two digits stands for
itself. -/
def encodedBytes : List Char → List UInt8
  | [] => []
  | '%' :: a :: b :: rest =>
    match Json.hexValue? a, Json.hexValue? b with
    | some x, some y => UInt8.ofNat (16 * x + y) :: encodedBytes rest
    | _, _ => 0x25 :: encodedBytes (a :: b :: rest)
  | c :: rest => (String.ofList [c]).toUTF8.toList ++ encodedBytes rest

def percentDecode (cs : List Char) : List Char := Text.decodeUtf8 (encodedBytes cs)

/-! ### Paths -/

/-- The path without the name of a host in front of it. -/
def withoutHost : List Char → List Char
  | '/' :: '/' :: rest => rest.dropWhile (· != '/')
  | cs => cs

/-- The pieces of a path, the last one first, after one more: a single dot stays where it is, and
two dots go back by one. -/
def walk (back : List (List Char)) (piece : List Char) : List (List Char) :=
  if piece = ['.'] then back
  -- two dots at the root stay there
  else if piece = ['.', '.'] then if back = [] || back = [[]] then back else back.tail
  else piece :: back

/-- The path from the root that an address leads to, still encoded: exactly one slash at its start,
and no piece of one or two dots. -/
def resolvePath (cs : List Char) : List Char :=
  let rooted := '/' :: (withoutHost cs).dropWhile (· == '/')
  let steps := ((pieces (· == '/') rooted).foldl walk []).reverse
  match ['/'].intercalate steps with
  | [] => ['/']
  | path => path

/-! ### Queries -/

/-- One half of a query's field; a plus sign stands for a space. -/
def queryText (cs : List Char) : String :=
  String.ofList (percentDecode (cs.map fun c => if c == '+' then ' ' else c))

/-- The field of a query, the value empty if there is no equals sign. -/
def queryField (cs : List Char) : String × String :=
  let (name, value) := cutAt (· == '=') cs
  (queryText name, queryText (value.getD []))

def queryFields (cs : List Char) : List (String × String) :=
  ((pieces (· == '&') cs).filter (· ≠ [])).map queryField

/-! ### Addresses -/

/-- An address as the service sees it. -/
structure Address where
  path : String
  query : List (String × String)
  deriving DecidableEq, Repr

/-- The address that is written in a text. What follows a number sign is not sent. -/
def Address.ofText (s : String) : Address :=
  let (path, query) := cutAt (· == '?') (cutAt (· == '#') s.toList).1
  -- one decoding by the client, one by the service
  { path := String.ofList (percentDecode (percentDecode (resolvePath path)))
    query := queryFields (query.getD []) }

/-- The part of a text after a start that it has to have. -/
def after? : (start text : List Char) → Option (List Char)
  | [], text => some text
  | _ :: _, [] => none
  | a :: start, c :: text => if a = c then after? start text else none

end AgentFlow.Http
