import Deduction.Proof

/-! # Documents

Propositions and proofs as structured documents of texts, lists and records,
and how documents are written: one item per line, two blanks deeper than what
encloses it. -/

namespace Deduction

inductive Document where
  | text (content : String)
  | list (items : List Document)
  | record (fields : List (String × Document))

/-! ## Writing -/

namespace Document

/-- Quotes, backslashes and control characters are escaped. -/
def escaped (c : Char) : String :=
  if c = '"' then "\\\""
  else if c = '\\' then "\\\\"
  else if c = '\x08' then "\\b"
  else if c = '\x0c' then "\\f"
  else if c = '\n' then "\\n"
  else if c = '\r' then "\\r"
  else if c = '\t' then "\\t"
  else if c.toNat < 32 then
    "\\u00" ++ String.ofList [(c.toNat / 16).digitChar, (c.toNat % 16).digitChar]
  else c.toString

def quoted (content : String) : String :=
  "\"" ++ String.join (content.toList.map escaped) ++ "\""

/-- Enclose items that stand on lines of their own. -/
def enclosed (opening closing indent : String) (items : List String) : String :=
  if items.isEmpty then
    opening ++ closing
  else
    opening ++ "\n" ++ ",\n".intercalate (items.map ((indent ++ "  ") ++ ·)) ++
      "\n" ++ indent ++ closing

mutual

def written (indent : String) : Document → String
  | text content => quoted content
  | list items => enclosed "[" "]" indent (writtenItems (indent ++ "  ") items)
  | record fields => enclosed "\x7b" "\x7d" indent (writtenFields (indent ++ "  ") fields)

def writtenItems (indent : String) : List Document → List String
  | [] => []
  | item :: items => written indent item :: writtenItems indent items

def writtenFields (indent : String) : List (String × Document) → List String
  | [] => []
  | (key, value) :: fields =>
      (quoted key ++ ": " ++ written indent value) :: writtenFields indent fields

end

end Document

/-! ## Propositions and proofs as documents -/

def Argument.document : Argument → Document
  | .object x => .record [("Object", .text x.text)]
  | .set s => .record [("Set", .text s.name)]

def Connective.label : Connective → String
  | .implies => "Impl"
  | .and => "Conj"
  | .or => "Disj"
  | .equivalent => "EqFm"

def Quantifier.label : Quantifier → String
  | .universal => "Forall"
  | .existential => "Exists"

def Relation.label : Relation → String
  | .less => "Lt"
  | .atMost => "Le"
  | .greater => "Gt"
  | .atLeast => "Ge"
  | .equal => "Eq"

def Proposition.document : Proposition → Document
  | .atom name arguments =>
      .record [("Atom", .list [.text name, .list (arguments.map Argument.document)])]
  | .falsum => .text "False"
  | .binary left connective right =>
      .record [("Bin", .list [left.document, .text connective.label, right.document])]
  | .quantified quantifier bound body =>
      .record [("Quant", .list [.text quantifier.label, .text bound.text, body.document])]
  | .member element set => .record [("Mem", .list [.text element.text, .text set.name])]
  | .ordered left relation right =>
      .record [("Ord", .list [.text left.text, .text relation.label, .text right.text])]

namespace Proof

mutual

def document : Proof → Document
  | ⟨_, conclusion, rule, premises⟩ =>
      .record [("text", .text conclusion.text), ("prop", conclusion.document),
        ("rule", .text rule.name), ("premises", .list (documentsOfAll premises))]

def documentsOfAll : List Proof → List Document
  | [] => []
  | head :: tail => document head :: documentsOfAll tail

end

end Proof

end Deduction
