set_option autoImplicit false

namespace SessionCourier.Text

def splitFirst? (separator : Char) (text : List Char) : Option (List Char × List Char) :=
  match text.dropWhile (· ≠ separator) with
  | [] => none
  | _ :: after => some (text.takeWhile (· ≠ separator), after)

def splitLast? (separator : Char) (text : List Char) : Option (List Char × List Char) :=
  (splitFirst? separator text.reverse).map fun parts => (parts.2.reverse, parts.1.reverse)

def splitAll (separator : Char) (text : List Char) : List (List Char) :=
  text.foldr (fun c parts =>
    if c = separator then [] :: parts
    else
      match parts with
      | [] => [[c]]
      | part :: later => (c :: part) :: later) [[]]

def withoutReturn (line : List Char) : List Char :=
  if line.getLast? = some '\r' then line.dropLast else line

def lines (text : String) : List String :=
  (splitAll '\n' text.toList).map fun line => String.ofList (withoutReturn line)

end SessionCourier.Text
