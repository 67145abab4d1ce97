/-!
# Colours and messages

Output for people is coloured by escape sequences.  Warnings and information
take a line each, with a coloured word in front.
-/

namespace Shipment.Terminal

/-- An escape sequence that selects a rendition. -/
def rendition (code : String) : String := "\x1b[" ++ code ++ "m"

/-- Back to plain text. -/
def reset : String := rendition "0"

/-- Bold. -/
def bold : String := rendition "1"

/-- Red. -/
def red : String := rendition "31"

/-- Green. -/
def green : String := rendition "32"

/-- Yellow. -/
def yellow : String := rendition "33"

/-- Blue. -/
def blue : String := rendition "34"

/-- Cyan. -/
def cyan : String := rendition "36"

/-- Gray. -/
def gray : String := rendition "90"

/-- A text in a rendition. -/
def styled (style text : String) : String := style ++ text ++ reset

/-- A text with the end of its line. -/
def line (text : String) : String := text ++ "\n"

/-- A warning. -/
def warning (message : String) : String := line (styled yellow "Warning:" ++ " " ++ message)

/-- Information. -/
def info (message : String) : String := line (styled cyan "Info:" ++ " " ++ message)

/-- A text repeated a number of times. -/
def repeated (n : Nat) (text : String) : String := String.join (List.replicate n text)

end Shipment.Terminal
