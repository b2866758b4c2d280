/-!
# Tab stops

Tabs give way to spaces up to the next multiple of eight columns; a line feed starts a new line.
-/

namespace DecoratorVeil.Text

def tabWidth : Nat := 8

def expandTabsFrom : Nat → List Char → List Char
  | _, [] => []
  | column, c :: rest =>
    if c == '\t' then
      let spaces := tabWidth - column % tabWidth
      List.replicate spaces ' ' ++ expandTabsFrom (column + spaces) rest
    else if c == '\n' then c :: expandTabsFrom 0 rest
    else c :: expandTabsFrom (column + 1) rest

def expandTabs (text : List Char) : List Char := expandTabsFrom 0 text

end DecoratorVeil.Text
