import QueryMapping.Relational.Selection

/-! The texts that a connection has last run with values. Of each it keeps the columns that the
selections in it had when they were first prepared. There is room for so many texts only, and the
one that has not been run for the longest time goes first. -/

namespace QueryMapping.Relational

/-- Texts with the columns of their selections, by the selections' places. The text run last is the
last. -/
abbrev PreparedTexts := Table String (Table Nat (List ResultColumn))

namespace PreparedTexts

def capacity : Nat := 100

def use (ps : PreparedTexts) (text : String) : PreparedTexts :=
  match ps.get? text with
  | some columns => ps.erase text ++ [(text, columns)]
  | none => ps.drop (ps.length + 1 - capacity) ++ [(text, [])]

def columns? (ps : PreparedTexts) (text : String) (place : Nat) : Option (List ResultColumn) :=
  (ps.get? text).bind (·.get? place)

def keep (ps : PreparedTexts) (text : String) (place : Nat) (columns : List ResultColumn) :
    PreparedTexts :=
  ps.set text (((ps.get? text).getD []).set place columns)

end PreparedTexts

end QueryMapping.Relational
