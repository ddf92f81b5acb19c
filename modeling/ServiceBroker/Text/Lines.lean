/-!
Cutting a text into lines and joining them. A line ends at a line feed; a carriage return right
before it belongs to the line end, and the last line needs none.
-/

namespace ServiceBroker.Text

/-- The pieces between the occurrences of `mark`; a text without it is one piece. -/
def splitAt (mark : Char) : List Char → List (List Char)
  | [] => [[]]
  | c :: rest =>
    if c = mark then [] :: splitAt mark rest
    else match splitAt mark rest with
      | [] => [[c]]
      | piece :: pieces => (c :: piece) :: pieces

/-- The line without one carriage return at its end. -/
def dropReturn (line : List Char) : List Char :=
  match line.getLast? with
  | some '\r' => line.dropLast
  | _ => line

/-- Ends every piece but the last, which counts as a line only if something stands in it. -/
def endLines : List (List Char) → List (List Char)
  | [] => []
  | [last] => if last.isEmpty then [] else [last]
  | piece :: pieces => dropReturn piece :: endLines pieces

def lines (text : List Char) : List (List Char) :=
  endLines (splitAt '\n' text)

/-- Lines put together with a line feed between them. -/
def joinLines (lines : List (List Char)) : List Char :=
  List.intercalate ['\n'] lines

end ServiceBroker.Text
