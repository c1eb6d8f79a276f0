/-!
# Texts of a least width

Columns of a table: a text shorter than its column is filled up, a longer one is left alone.
-/
namespace LineAsm.Text

/-- Fills up on the left. -/
def padLeft (fill : Char) (width : Nat) (text : String) : String :=
  String.ofList (text.toList.leftpad width fill)

/-- Fills up on the right. -/
def padRight (fill : Char) (width : Nat) (text : String) : String :=
  String.ofList (text.toList.rightpad width fill)

end LineAsm.Text
