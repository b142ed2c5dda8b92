import Onboarding.Json.Printer

namespace Onboarding.Http

structure Request where
  -- The target is a path, a question mark and a query, of which the query may be missing. A scheme
  -- and an authority may stand in front of them.
  method : String
  target : String
  contentType : Option String := none
  body : String := ""

namespace Request

def isSchemeChar (c : Char) : Bool := c.isAlphanum || c == '+' || c == '-' || c == '.'

def afterAuthority (cs : List Char) : List Char :=
  match cs.dropWhile isSchemeChar with
  | ':' :: '/' :: '/' :: rest => rest.dropWhile fun c => c ≠ '/' && c ≠ '?'
  | _ => []

def location (r : Request) : List Char :=
  match r.target.toList.takeWhile (· ≠ '#') with
  | '/' :: cs => '/' :: cs
  | cs => afterAuthority cs

def path (r : Request) : List Char := r.location.takeWhile (· ≠ '?')

def query (r : Request) : List Char := (r.location.dropWhile (· ≠ '?')).drop 1

end Request

inductive Body where
  | empty
  | json (value : Json)
  | text (content : String)

structure Response where
  status : Nat
  contentType : Option String := none
  body : Body := .empty

namespace Response

def ofJson (status : Nat) (value : Json) : Response :=
  { status, contentType := some "application/json", body := .json value }

def rejection (status : Nat) (reason : String) : Response :=
  { status, contentType := some "text/plain; charset=utf-8", body := .text reason }

end Response

end Onboarding.Http
