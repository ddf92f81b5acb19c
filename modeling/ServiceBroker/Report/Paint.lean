/-!
Colours on a terminal. A painted text stands between the codes that switch the colour on and off
again.
-/

namespace ServiceBroker

/-- A colour, or the way in which a text stands back. -/
inductive Color where
  | green
  | red
  | yellow
  | dimmed
deriving DecidableEq

/-- The code that switches a colour on. -/
def Color.code : Color → String
  | green => "32"
  | red => "31"
  | yellow => "33"
  | dimmed => "2"

def paint (colors : Bool) (color : Color) (text : String) : String :=
  if colors then "\x1b[" ++ color.code ++ "m" ++ text ++ "\x1b[0m" else text

/-- Whether there are colours: they can be forced, or else switched off, and otherwise stand on a
terminal only. -/
def hasColors (force disable wanted : Option String) (isTerminal : Bool) : Bool :=
  if force.any (· ≠ "0") then true
  else if disable.isSome then false
  else wanted.all (· ≠ "0") && isTerminal

end ServiceBroker
