/-!
# Substrings

Searching for a word in a text, cutting it off at either end and replacing every occurrence. Occurrences are
found from left to right and do not overlap; inserted text is not searched again.
-/

set_option autoImplicit false

namespace AmbientScope.Substring

def occursIn (word : List Char) : List Char → Bool
  | [] => word.isEmpty
  | c :: cs => word.isPrefixOf (c :: cs) || occursIn word cs

/-- Copy the text with each occurrence of `word` replaced; `skip` characters of an occurrence are still to
be passed over. -/
def replaceFrom (word value : List Char) (skip : Nat) : List Char → List Char
  | [] => []
  | c :: cs =>
    match skip with
    | skip + 1 => replaceFrom word value skip cs
    | 0 =>
      if word.isPrefixOf (c :: cs) then value ++ replaceFrom word value (word.length - 1) cs
      else c :: replaceFrom word value 0 cs

def replaceAll (word value text : List Char) : List Char := replaceFrom word value 0 text

end AmbientScope.Substring

namespace AmbientScope

def mentions (text word : String) : Bool := Substring.occursIn word.toList text.toList

def afterBeginning? (beginning text : String) : Option String :=
  (beginning.toList.isPrefixOf? text.toList).map String.ofList

def beforeEnding? (ending text : String) : Option String :=
  (ending.toList.isSuffixOf? text.toList).map String.ofList

end AmbientScope
