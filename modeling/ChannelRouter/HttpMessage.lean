import ChannelRouter.AdminEndpoint

/-!
# HTTP messages

A request begins with a line of a method, a path and a version, and its head
ends with an empty line.  A response to it states its status and the length of
its body, and is the only one on its connection.
-/

namespace ChannelRouter.HttpMessage

/-- The head of a request: what is asked for, and where. -/
structure Request where
  method : String
  path : String
deriving DecidableEq, Repr

/-- The bytes that end the head of a request. -/
def headEnd : List UInt8 := [13, 10, 13, 10]

/-- Whether bytes hold the whole head of a request. -/
def isWhole : List UInt8 → Bool
  | [] => false
  | byte :: rest => headEnd.isPrefixOf (byte :: rest) || isWhole rest

/-- The request that bytes begin with. -/
def request? (bytes : List UInt8) : Option Request := do
  let line ← String.fromUTF8? ⟨(bytes.takeWhile (· ≠ 13)).toArray⟩
  match line.splitOn " " with
  | [method, path, _] => pure ⟨method, path⟩
  | _ => none

/-- The phrase that goes with a status. -/
def phrase : Nat → String
  | 200 => "OK"
  | 404 => "Not Found"
  | 405 => "Method Not Allowed"
  | _ => "Bad Request"

/-- A response with a body of a given type, as it is sent. -/
def encode (contentType : String) (response : AdminEndpoint.Response) :
    List UInt8 :=
  (s!"HTTP/1.1 {response.status} {phrase response.status}\r\n" ++
    s!"content-type: {contentType}\r\nconnection: close\r\n" ++
    s!"content-length: {response.body.utf8ByteSize}\r\n\r\n" ++
      response.body).toUTF8.toList

/-- The bytes to answer a request with, given as it was received. -/
def answer (director : Director) (bytes : List UInt8) : List UInt8 :=
  encode "application/json" <|
    match request? bytes with
    | some request => AdminEndpoint.respond director request.method request.path
    | none => ⟨400, ""⟩

end ChannelRouter.HttpMessage
