import Onboarding.Text.Folding

namespace Onboarding.Http

def isTokenChar (c : Char) : Bool := c.isAlphanum || "!#$%&'*+-.^_`|~".toList.contains c

def isQuotable (c : Char) : Bool := 32 ≤ c.toNat && c.toNat < 127

inductive ParameterPlace where
  | beforeName
  | name
  | valueStart
  | value
  | quoteStart
  | quoted
  | afterQuoted

namespace ParameterPlace

def next? (place : ParameterPlace) (c : Char) : Option ParameterPlace :=
  -- Spaces may stand in front of a name and after a quoted value. A quoted value has at least one
  -- character, which may be a quote.
  match place with
  | .beforeName => if c = ' ' then some .beforeName else if isTokenChar c then some .name else none
  | .name => if c = '=' then some .valueStart else if isTokenChar c then some .name else none
  | .valueStart => if c = '"' then some .quoteStart else if isTokenChar c then some .value else none
  | .value => if c = ';' then some .beforeName else if isTokenChar c then some .value else none
  | .quoteStart => if isQuotable c then some .quoted else none
  | .quoted => if c = '"' then some .afterQuoted else if isQuotable c then some .quoted else none
  | .afterQuoted =>
    if c = ';' then some .beforeName else if c = ' ' then some .afterQuoted else none

def isEnd : ParameterPlace → Bool
  -- The last value may be empty.
  | .beforeName | .valueStart | .value | .afterQuoted => true
  | .name | .quoteStart | .quoted => false

end ParameterPlace

def areParameters (cs : List Char) : Bool :=
  (cs.foldlM ParameterPlace.next? .beforeName).any ParameterPlace.isEnd

def suffixed (subtype : List Char) : List Char × Option (List Char) :=
  -- A plus sign in first place does not begin a suffix.
  if (subtype.drop 1).contains '+' then
    let suffix := (subtype.reverse.takeWhile (· ≠ '+')).reverse
    (subtype.take (subtype.length - suffix.length - 1), some suffix)
  else (subtype, none)

def isJsonType (s : String) : Bool :=
  -- `application/json`, or another subtype that ends in `+json` or has `json` in front of its last
  -- plus sign.
  let cs := Text.foldCase s.toList
  match cs.dropWhile isTokenChar with
  | '/' :: rest =>
    let subtype := rest.takeWhile isTokenChar
    let isWellFormed :=
      match rest.drop subtype.length with
      | [] => true
      | c :: parameters => c == ';' && !subtype.isEmpty && areParameters parameters
    let (front, suffix) := suffixed subtype
    isWellFormed && cs.takeWhile isTokenChar == "application".toList &&
      (front == "json".toList || suffix == some "json".toList)
  | _ => false

end Onboarding.Http
