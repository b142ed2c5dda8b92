import Onboarding.Http.Percent
import Onboarding.Text.Split

namespace Onboarding.Http

def formDecoded (cs : List Char) : String :=
  textOfBytes (percentDecoded (cs.map fun c => if c = '+' then ' ' else c))

def formField (cs : List Char) : String × String :=
  -- Without an equals sign the value is empty.
  (formDecoded (cs.takeWhile (· ≠ '=')), formDecoded ((cs.dropWhile (· ≠ '=')).drop 1))

def formFields (query : List Char) : List (String × String) :=
  -- Empty fields do not count.
  ((Text.split '&' query).filter (!·.isEmpty)).map formField

def formValues (query : List Char) (name : String) : List String :=
  ((formFields query).filter (·.1 = name)).map (·.2)

end Onboarding.Http
