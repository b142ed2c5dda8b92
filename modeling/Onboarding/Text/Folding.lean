namespace Onboarding.Text

def foldCase (cs : List Char) : List Char := cs.map Char.toLower

def sameFolded (a b : String) : Bool := foldCase a.toList == foldCase b.toList

end Onboarding.Text
