import DecoratorVeil.Text.Markup
import DecoratorVeil.Text.Styles
import DecoratorVeil.Text.Tabs

/-!
# Consoles

How paths and messages come out on a console.  A console reads what it is given as markup, and may
find that it cannot.  On the standard one some control characters are dropped and tabs are expanded,
where every character takes one column.  Formatted texts do not go through a console, but the output
is no terminal, and styles are left out of it.
-/

namespace DecoratorVeil.CommandLine
open Text

structure Console where
  /-- A path and what went wrong with it. -/
  report : String → String → Except MarkupError String
  /-- A path in the list of files that a check rejects. -/
  listed : String → Except MarkupError String
  /-- What a progress display leaves when it ends, by what has been done and the file with which it
  was done last.  What it shows or runs into before its end is left out. -/
  displayed : String → Option String → Except MarkupError String

namespace Console

/-- Bell, backspace, vertical tab, form feed and carriage return are not printed. -/
def isDropped (c : Char) : Bool :=
  [0x07, 0x08, 0x0B, 0x0C, 0x0D].contains c.toNat

def printed (markup : List Char) : Except MarkupError String :=
  (Markup.render markup).map fun text =>
    String.ofList (expandTabs (text.filter (!isDropped ·)) ++ ['\n'])

/-- A console that is no terminal and knows no emoji, whose names are left as they are.  Paths and
messages are escaped one by one, but not for the progress display, of which only a line feed is
left. -/
def standard : Console where
  report path message :=
    printed (Markup.escape path.toList ++ '\n' :: Markup.escape message.toList)
  listed path := printed ("- \x27".toList ++ Markup.escape path.toList ++ "\x27".toList)
  displayed task last :=
    (Markup.render (task ++ " \x27" ++ last.getD "N/A" ++ "\x27").toList).map fun _ => "\n"

end Console

def echoed (text : String) : String :=
  String.ofList (dropStyles text.toList)

end DecoratorVeil.CommandLine
