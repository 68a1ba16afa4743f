namespace Refit.Text

def occursIn (part : List Char) : List Char → Bool
  | [] => part.isEmpty
  | c :: rest => part.isPrefixOf (c :: rest) || occursIn part rest

def contains (text part : String) : Bool := occursIn part.toList text.toList

def startsWith (text part : String) : Bool := part.toList.isPrefixOf text.toList

def endsWith (text part : String) : Bool := part.toList.isSuffixOf text.toList

/-- The pieces between separators. There is one more of them than there are separators. -/
def splitChars (separator : Char → Bool) : List Char → List (List Char)
  | [] => [[]]
  | c :: rest =>
    if separator c then [] :: splitChars separator rest
    else
      match splitChars separator rest with
      | piece :: others => (c :: piece) :: others
      | [] => [[c]]

def split (separator : Char) (text : String) : List String :=
  (splitChars (· = separator) text.toList).map String.ofList

def dropEnd (property : Char → Bool) (text : List Char) : List Char :=
  (text.reverse.dropWhile property).reverse

def dropSuffix (ending text : String) : String :=
  if endsWith text ending then String.ofList (text.toList.take (text.length - ending.length)) else text

/-- Replaces the occurrences of a part from left to right. The first argument counts the characters
    of the last occurrence that are still to be passed over. -/
def replaceFrom (part replacement : List Char) : Nat → List Char → List Char
  | _, [] => []
  | skip + 1, _ :: rest => replaceFrom part replacement skip rest
  | 0, c :: rest =>
    if part.isPrefixOf (c :: rest) then replacement ++ replaceFrom part replacement (part.length - 1) rest
    else c :: replaceFrom part replacement 0 rest

def replace (part replacement text : String) : String :=
  String.ofList (replaceFrom part.toList replacement.toList 0 text.toList)

def drop (n : Nat) (text : String) : String := String.ofList (text.toList.drop n)

end Refit.Text
