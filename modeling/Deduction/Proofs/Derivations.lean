import Deduction.Proofs.Readability

/-! # Trees and documents of derivations

A derivation is written as a tree of lines or as a document. In the tree, the structure is
only seen from the indentation: the premises of a node end before the next line that is not
indented deeper than the node. In the document, objects are only seen from their texts. Both
forms show the whole derivation, as far as texts show what they are texts of. -/

namespace Deduction

theorem Rule.name_injective : Function.Injective Rule.name := by
  intro left right
  cases left <;> cases right <;> simp [name]

theorem Rule.isAlpha_of_mem_name (rule : Rule) {c : Char} (member : c ∈ rule.name.toList) :
    c.isAlpha = true := by
  have letters : rule.name.toList.all Char.isAlpha = true := by
    cases rule <;> rfl
  exact List.all_eq_true.mp letters c member

theorem Rule.bracket_not_mem_name (rule : Rule) :
    ∀ c ∈ rule.name.toList, (c == '[') = false := by
  intro c member
  apply beq_false_of_ne
  rintro rfl
  cases rule.isAlpha_of_mem_name member

namespace Proof

/-! ## Corresponding derivations -/

mutual

/-- The derivations have the same shape, with the same rules and with conclusions that are
alike at corresponding nodes. -/
def Corresponds (alike : Proposition → Proposition → Prop) : Proof → Proof → Prop
  | ⟨_, conclusion, rule, premises⟩, ⟨_, conclusion', rule', premises'⟩ =>
      alike conclusion conclusion' ∧ rule = rule' ∧ CorrespondAll alike premises premises'

def CorrespondAll (alike : Proposition → Proposition → Prop) : List Proof → List Proof → Prop
  | [], [] => True
  | head :: tail, head' :: tail' => Corresponds alike head head' ∧ CorrespondAll alike tail tail'
  | _, _ => False

end

mutual

/-- The nodes of a derivation with their depths, each node before its premises. -/
def outline (depth : Nat) : Proof → List (Nat × Proof)
  | ⟨serial, conclusion, rule, premises⟩ =>
      (depth, ⟨serial, conclusion, rule, premises⟩) :: outlineOfAll (depth + 1) premises

def outlineOfAll (depth : Nat) : List Proof → List (Nat × Proof)
  | [] => []
  | head :: tail => outline depth head ++ outlineOfAll depth tail

end

mutual

/-- The propositions of a derivation. -/
def statements : Proof → List Proposition
  | ⟨_, conclusion, _, premises⟩ => conclusion :: statementsOfAll premises

def statementsOfAll : List Proof → List Proposition
  | [] => []
  | head :: tail => statements head ++ statementsOfAll tail

end

mutual

theorem map_outline : (depth : Nat) → (proof : Proof) →
    (proof.outline depth).map (fun node => node.2.conclusion) = proof.statements
  | depth, ⟨serial, conclusion, rule, premises⟩ => by
      simp [outline, statements, map_outlineOfAll (depth + 1) premises]

theorem map_outlineOfAll : (depth : Nat) → (proofs : List Proof) →
    (outlineOfAll depth proofs).map (fun node => node.2.conclusion) = statementsOfAll proofs
  | depth, [] => by simp [outlineOfAll, statementsOfAll]
  | depth, head :: tail => by
      simp [outlineOfAll, statementsOfAll, map_outline depth head, map_outlineOfAll depth tail]

end

mutual

theorem length_outline : (depth : Nat) → (proof : Proof) →
    (proof.outline depth).length = proof.size
  | depth, ⟨serial, conclusion, rule, premises⟩ => by
      simp [outline, size, length_outlineOfAll (depth + 1) premises]

theorem length_outlineOfAll : (depth : Nat) → (proofs : List Proof) →
    (outlineOfAll depth proofs).length = sizeOfAll proofs
  | depth, [] => by simp [outlineOfAll, sizeOfAll]
  | depth, head :: tail => by
      simp [outlineOfAll, sizeOfAll, length_outline depth head, length_outlineOfAll depth tail]

end

/-! ## Lines -/

/-- What a line of a tree shows. -/
structure Line where
  depth : Nat
  statement : String
  rule : Rule

/-- The text fills a line and does not begin like an indentation. -/
def IsLine (text : String) : Prop :=
  text ≠ "" ∧ '\n' ∉ text.toList ∧ text.toList.head? ≠ some ' '

instance (text : String) : Decidable (IsLine text) :=
  inferInstanceAs (Decidable (_ ∧ _ ∧ _))

/-- How many blanks a line begins with. -/
def indent (line : List Char) : Nat :=
  (line.takeWhile (· == ' ')).length

namespace Line

variable {line line' : Line}

def text (line : Line) : String :=
  indentation line.depth ++ line.statement ++ " [" ++ line.rule.name ++ "]"

/-- What stands in a line after the indentation. -/
def content (line : Line) : List Char :=
  line.statement.toList ++ " [".toList ++ line.rule.name.toList ++ "]".toList

theorem toList_text (line : Line) :
    line.text.toList = List.replicate (2 * line.depth) ' ' ++ line.content := by
  simp [text, content, indentation]

theorem head_content (isLine : IsLine line.statement) :
    ∀ c, line.content.head? = some c → (c != ' ') = true := by
  rcases isLine with ⟨nonempty, _, noBlank⟩
  intro c isHead
  cases characters : line.statement.toList with
  | nil => exact absurd (String.toList_eq_nil_iff.mp characters) nonempty
  | cons first rest =>
      rw [characters] at noBlank
      have isFirst : first = c := by simpa [content, characters] using isHead
      simpa [isFirst] using noBlank

theorem indent_text (isLine : IsLine line.statement) :
    indent line.text.toList = 2 * line.depth := by
  have noneFollows : line.content.takeWhile (· == ' ') = [] := by
    cases content : line.content with
    | nil => rfl
    | cons c rest =>
        have notBlank := bne_iff_ne.mp (head_content isLine c (by simp [content]))
        simp [notBlank]
  rw [indent, toList_text, List.takeWhile_append_of_pos (by simp), noneFollows]
  simp

theorem newline_not_mem_text (isLine : IsLine line.statement) : '\n' ∉ line.text.toList := by
  have ofRule : '\n' ∉ line.rule.name.toList := by
    intro member
    cases line.rule.isAlpha_of_mem_name member
  simp [toList_text, content, isLine.2.1, ofRule]

/-- The rule is found by reading the line from its end. -/
theorem eq_of_content (same : line.content = line'.content) :
    line.statement = line'.statement ∧ line.rule = line'.rule := by
  have backwards : line.rule.name.toList.reverse ++ '[' :: ' ' :: line.statement.toList.reverse =
      line'.rule.name.toList.reverse ++ '[' :: ' ' :: line'.statement.toList.reverse := by
    simpa [content] using congrArg List.reverse same
  have split := eq_of_append_eq
    (fun c member => line.rule.bracket_not_mem_name c (List.mem_reverse.mp member))
    (fun c member => line'.rule.bracket_not_mem_name c (List.mem_reverse.mp member))
    (by simp) (by simp) backwards
  have sameRule : line.rule.name.toList = line'.rule.name.toList := by simpa using split.1
  have sameStatement : line.statement.toList = line'.statement.toList := by
    simpa using split.2
  exact ⟨String.toList_inj.mp sameStatement, Rule.name_injective (String.toList_inj.mp sameRule)⟩

theorem eq_of_text (isLine : IsLine line.statement) (isLine' : IsLine line'.statement)
    (same : line.text = line'.text) : line = line' := by
  have characters := congrArg String.toList same
  rw [toList_text, toList_text] at characters
  have split := eq_of_append_eq (by simp) (by simp) (head_content isLine)
    (head_content isLine') characters
  have sameLength : 2 * line.depth = 2 * line'.depth := by
    simpa using congrArg List.length split.1
  have sameDepth : line.depth = line'.depth := by omega
  rcases eq_of_content split.2 with ⟨sameStatement, sameRule⟩
  cases line
  cases line'
  simp_all

end Line

/-- The lines of a text. The line break that ends the last one begins no other. -/
def linesOf (text : List Char) : List (List Char) :=
  let pieces := text.splitOn '\n'
  if pieces.getLast? = some [] then pieces.dropLast else pieces

theorem splitOn_flatMap {lines : List (List Char)} (unbroken : ∀ line ∈ lines, '\n' ∉ line) :
    (lines.flatMap (· ++ ['\n'])).splitOn '\n' = lines ++ [[]] := by
  induction lines with
  | nil => simp
  | cons line lines induction =>
      rw [List.forall_mem_cons] at unbroken
      rw [List.flatMap_cons, List.append_assoc, List.singleton_append,
        List.splitOn_append_cons_self, List.splitOn_eq_singleton unbroken.1,
        induction unbroken.2]
      rfl

/-! ## Trees -/

/-- What a line shows of a node. -/
def lineOf (node : Nat × Proof) : Line where
  depth := node.1
  statement := node.2.conclusion.text
  rule := node.2.rule

def shown (depth : Nat) (proof : Proof) : List Line :=
  (proof.outline depth).map lineOf

def shownOfAll (depth : Nat) (proofs : List Proof) : List Line :=
  (outlineOfAll depth proofs).map lineOf

section Shown

variable {depth serial : Nat} {conclusion : Proposition} {rule : Rule} {premises : List Proof}
  {head : Proof} {tail : List Proof}

theorem shown_mk : shown depth ⟨serial, conclusion, rule, premises⟩ =
    ⟨depth, conclusion.text, rule⟩ :: shownOfAll (depth + 1) premises := by
  simp [shown, outline, lineOf, shownOfAll]

theorem shownOfAll_nil : shownOfAll depth [] = [] := by
  simp [shownOfAll, outlineOfAll]

theorem shownOfAll_cons : shownOfAll depth (head :: tail) =
    shown depth head ++ shownOfAll depth tail := by
  simp [shownOfAll, outlineOfAll, shown]

end Shown

mutual

theorem lines_eq_map_shown : (depth : Nat) → (proof : Proof) →
    proof.lines depth = (proof.shown depth).map Line.text
  | depth, ⟨serial, conclusion, rule, premises⟩ => by
      rw [lines, shown_mk, linesOfAll_eq_map_shown (depth + 1) premises]
      rfl

theorem linesOfAll_eq_map_shown : (depth : Nat) → (proofs : List Proof) →
    linesOfAll depth proofs = (shownOfAll depth proofs).map Line.text
  | depth, [] => by simp [linesOfAll, shownOfAll_nil]
  | depth, head :: tail => by
      rw [linesOfAll, shownOfAll_cons, lines_eq_map_shown depth head,
        linesOfAll_eq_map_shown depth tail, List.map_append]

end

/-- The first line is not indented deeper than the depth. -/
def Returns (depth : Nat) (lines : List Line) : Prop :=
  ∀ line, lines.head? = some line → line.depth ≤ depth

theorem Returns.shownOfAll {depth : Nat} {rest : List Line} (returns : Returns depth rest)
    (proofs : List Proof) : Returns depth (shownOfAll depth proofs ++ rest) := by
  cases proofs with
  | nil => simpa [shownOfAll_nil] using returns
  | cons head tail =>
      rcases head with ⟨serial, conclusion, rule, premises⟩
      simp [Returns, shownOfAll_cons, shown_mk]

/-- Two propositions with the same text. -/
def SameText (p q : Proposition) : Prop :=
  p.text = q.text

mutual

/-- The lines of a node and its premises end before the first line that returns to the depth
of the node. -/
theorem corresponds_of_shown {depth : Nat} {rest rest' : List Line} : (p q : Proof) →
    Returns depth rest → Returns depth rest' →
    p.shown depth ++ rest = q.shown depth ++ rest' → p.Corresponds SameText q ∧ rest = rest'
  | ⟨_, conclusion, rule, premises⟩, ⟨_, conclusion', rule', premises'⟩, returns, returns',
    same => by
      rw [shown_mk, shown_mk] at same
      rcases List.cons.inj same with ⟨sameLine, samePremises⟩
      have deeper : ∀ {lines : List Line}, Returns depth lines →
          ∀ line, lines.head? = some line → line.depth < depth + 1 :=
        fun returns line isHead => Nat.lt_succ_of_le (returns line isHead)
      rcases correspondAll_of_shown premises premises' (deeper returns) (deeper returns')
        samePremises with ⟨correspond, sameRest⟩
      rw [Line.mk.injEq] at sameLine
      exact ⟨⟨sameLine.2.1, sameLine.2.2, correspond⟩, sameRest⟩

theorem correspondAll_of_shown {depth : Nat} {rest rest' : List Line} : (ps qs : List Proof) →
    (∀ line, rest.head? = some line → line.depth < depth) →
    (∀ line, rest'.head? = some line → line.depth < depth) →
    shownOfAll depth ps ++ rest = shownOfAll depth qs ++ rest' →
    CorrespondAll SameText ps qs ∧ rest = rest'
  | [], [], _, _, same => ⟨True.intro, by simpa [shownOfAll_nil] using same⟩
  | [], ⟨_, conclusion, rule, premises⟩ :: qs, above, _, same => by
      have isHead : rest.head? = some ⟨depth, conclusion.text, rule⟩ := by
        rw [shownOfAll_nil, List.nil_append] at same
        simp [same, shownOfAll_cons, shown_mk]
      exact absurd (above _ isHead) (Nat.lt_irrefl depth)
  | ⟨_, conclusion, rule, premises⟩ :: ps, [], _, above, same => by
      have isHead : rest'.head? = some ⟨depth, conclusion.text, rule⟩ := by
        rw [shownOfAll_nil, List.nil_append] at same
        simp [← same, shownOfAll_cons, shown_mk]
      exact absurd (above _ isHead) (Nat.lt_irrefl depth)
  | p :: ps, q :: qs, above, above', same => by
      rw [shownOfAll_cons, shownOfAll_cons, List.append_assoc, List.append_assoc] at same
      have returns : Returns depth rest := fun line isHead => Nat.le_of_lt (above line isHead)
      have returns' : Returns depth rest' := fun line isHead => Nat.le_of_lt (above' line isHead)
      rcases corresponds_of_shown p q (returns.shownOfAll ps) (returns'.shownOfAll qs) same with
        ⟨ofFirst, sameOthers⟩
      rcases correspondAll_of_shown ps qs above above' sameOthers with ⟨ofOthers, sameRest⟩
      exact ⟨⟨ofFirst, ofOthers⟩, sameRest⟩

end

mutual

theorem shown_of_corresponds (depth : Nat) : {p q : Proof} → p.Corresponds SameText q →
    p.shown depth = q.shown depth
  | ⟨_, conclusion, rule, premises⟩, ⟨_, conclusion', rule', premises'⟩,
    ⟨sameText, sameRule, correspond⟩ => by
      rw [shown_mk, shown_mk, show conclusion.text = conclusion'.text from sameText, sameRule,
        shownOfAll_of_correspondAll (depth + 1) correspond]

theorem shownOfAll_of_correspondAll (depth : Nat) : {ps qs : List Proof} →
    CorrespondAll SameText ps qs → shownOfAll depth ps = shownOfAll depth qs
  | [], [], _ => rfl
  | p :: ps, q :: qs, ⟨ofFirst, ofOthers⟩ => by
      rw [shownOfAll_cons, shownOfAll_cons, shown_of_corresponds depth ofFirst,
        shownOfAll_of_correspondAll depth ofOthers]

end

theorem isLine_of_mem_shown {proof : Proof} {depth : Nat}
    (fit : ∀ statement ∈ proof.statements, IsLine statement.text) :
    ∀ line ∈ proof.shown depth, IsLine line.statement := by
  intro line member
  rcases List.mem_map.mp member with ⟨node, isNode, rfl⟩
  apply fit
  rw [← map_outline depth]
  exact List.mem_map_of_mem isNode

theorem linesOf_tree {proof : Proof}
    (fit : ∀ statement ∈ proof.statements, IsLine statement.text) :
    linesOf proof.tree.toList = (proof.shown 0).map fun line => line.text.toList := by
  have isFlat : proof.tree.toList =
      ((proof.shown 0).map fun line => line.text.toList).flatMap (· ++ ['\n']) := by
    simp [tree, lines_eq_map_shown, List.flatMap_map]
  have unbroken : ∀ line ∈ (proof.shown 0).map (fun line => line.text.toList), '\n' ∉ line := by
    simpa using fun line member => Line.newline_not_mem_text (isLine_of_mem_shown fit line member)
  rw [linesOf, isFlat, splitOn_flatMap unbroken]
  simp

theorem eq_of_map_text {lines lines' : List Line}
    (areLines : ∀ line ∈ lines, IsLine line.statement)
    (areLines' : ∀ line ∈ lines', IsLine line.statement)
    (same : lines.map (fun line => line.text.toList) = lines'.map fun line => line.text.toList) :
    lines = lines' := by
  induction lines generalizing lines' with
  | nil =>
      cases lines' with
      | nil => rfl
      | cons line' lines' => cases same
  | cons line lines induction =>
      cases lines' with
      | nil => cases same
      | cons line' lines' =>
          rw [List.forall_mem_cons] at areLines areLines'
          rcases List.cons.inj same with ⟨sameFirst, sameOthers⟩
          rw [Line.eq_of_text areLines.1 areLines'.1 (String.toList_inj.mp sameFirst),
            induction areLines.2 areLines'.2 sameOthers]

/-- If every proposition fills one line, the tree shows the derivation and nothing else, with
one line for each node that is indented by twice the depth of the node. -/
theorem tree_shows_derivation {p q : Proof}
    (fit : ∀ statement ∈ p.statements, IsLine statement.text)
    (fit' : ∀ statement ∈ q.statements, IsLine statement.text) :
    (p.tree = q.tree ↔ p.Corresponds SameText q) ∧
      (linesOf p.tree.toList).length = p.size ∧
      (linesOf p.tree.toList).map indent = (p.outline 0).map fun node => 2 * node.1 := by
  refine ⟨⟨fun same => ?_, fun corresponds => ?_⟩, ?_, ?_⟩
  · have sameLines := linesOf_tree fit
    rw [same, linesOf_tree fit'] at sameLines
    have sameShown : p.shown 0 = q.shown 0 :=
      eq_of_map_text (isLine_of_mem_shown fit) (isLine_of_mem_shown fit') sameLines.symm
    have noneFollows : Returns 0 [] := by simp [Returns]
    exact (corresponds_of_shown p q noneFollows noneFollows (by rw [sameShown])).1
  · rw [tree, tree, lines_eq_map_shown, lines_eq_map_shown, shown_of_corresponds 0 corresponds]
  · simp [linesOf_tree fit, shown, length_outline]
  · have indents : ∀ line ∈ p.shown 0, indent line.text.toList = 2 * line.depth :=
      fun line member => Line.indent_text (isLine_of_mem_shown fit line member)
    simp only [linesOf_tree fit, List.map_map, Function.comp_def]
    rw [List.map_congr_left indents, shown, List.map_map]
    rfl

/-! The samples consist of the same propositions in the same order. One of these is written like
a whole line. -/

namespace Sample

def bareAtom (name : String) : Proposition :=
  .atom name []

def detached : Proof :=
  ⟨3, bareAtom "B", .modusPonens,
    [⟨1, (bareAtom "A [Axiom]").implies (bareAtom "B"), .postulate, []⟩,
      ⟨2, bareAtom "A [Axiom]", .postulate, []⟩]⟩

def chained : Proof :=
  ⟨3, bareAtom "B", .modusPonens,
    [⟨1, (bareAtom "A [Axiom]").implies (bareAtom "B"), .postulate,
      [⟨2, bareAtom "A [Axiom]", .postulate, []⟩]⟩]⟩

end Sample

open Sample in
theorem tree_shows_detached :
    (∀ statement ∈ detached.statements, IsLine statement.text) ∧
      (∀ statement ∈ chained.statements, IsLine statement.text) ∧
      detached.tree ≠ chained.tree ∧ (linesOf detached.tree.toList).length = 3 ∧
      (linesOf detached.tree.toList).map indent = [0, 2, 2] := by
  have fit : ∀ statement ∈ detached.statements, IsLine statement.text := by decide
  have fit' : ∀ statement ∈ chained.statements, IsLine statement.text := by decide
  have different : ¬detached.Corresponds SameText chained := by
    simp [detached, chained, Corresponds, CorrespondAll]
  rcases tree_shows_derivation fit fit' with ⟨same, lineCount, indents⟩
  exact ⟨fit, fit', mt same.mp different, lineCount.trans (by decide), indents.trans (by decide)⟩

/-! ## Documents -/

end Proof

namespace Proposition

theorem argumentDocument_of_beq {argument argument' : Argument}
    (equal : (argument == argument') = true) : argument.document = argument'.document := by
  rcases Argument.cases_of_beq equal with ⟨x, y, rfl, rfl, sameKey⟩ | ⟨s, t, rfl, rfl, sameName⟩
  · simp [Argument.document, Object.text_of_key sameKey]
  · simp [Argument.document, sameName]

/-- Documents show no more of a proposition than equality sees. -/
theorem document_of_beq {p q : Proposition} (equal : (p == q) = true) :
    p.document = q.document := by
  induction p generalizing q with
  | atom name arguments =>
      rcases eq_of_atom_beq equal with ⟨arguments', rfl, ofArguments⟩
      rw [document, document, Argument.map_eq_of_beq argumentDocument_of_beq ofArguments]
  | falsum => rw [eq_of_falsum_beq equal]
  | binary left connective right leftInduction rightInduction =>
      rcases eq_of_binary_beq equal with ⟨left', right', rfl, ofLeft, ofRight⟩
      rw [document, document, leftInduction ofLeft, rightInduction ofRight]
  | quantified quantifier bound body induction =>
      rcases eq_of_quantified_beq equal with ⟨bound', body', rfl, ofBound, ofBody⟩
      rw [document, document, Object.text_of_key ofBound, induction ofBody]
  | member element set =>
      rcases eq_of_member_beq equal with ⟨element', set', rfl, ofElement, ofSet⟩
      rw [document, document, Object.text_of_key ofElement, ofSet]
  | ordered left relation right =>
      rcases eq_of_ordered_beq equal with ⟨left', right', rfl, ofLeft, ofRight⟩
      rw [document, document, Object.text_of_key ofLeft, Object.text_of_key ofRight]

end Proposition

open Proposition (TextsTell)

/-- No named object is called like an unnamed one is written. -/
def NamesApart (objects : List Object) : Prop :=
  ∀ x ∈ objects, ∀ y ∈ objects, x.name ≠ "" → y.name = "" → x.name ≠ y.text

theorem NamesApart.textsTell {left right : List Object} (apart : NamesApart (left ++ right)) :
    TextsTell left right := by
  intro x isLeft y isRight
  have inBoth : x ∈ left ++ right ∧ y ∈ left ++ right :=
    ⟨List.mem_append_left _ isLeft, List.mem_append_right _ isRight⟩
  exact Object.key_of_text_of_apart (apart x inBoth.1 y inBoth.2) (apart y inBoth.2 x inBoth.1)

namespace Proof

/-- The objects of the propositions of a derivation. -/
def objects (proof : Proof) : List Object :=
  proof.statements.flatMap Proposition.objects

/-- Two equal propositions. -/
def Equal (p q : Proposition) : Prop :=
  (p == q) = true

mutual

theorem corresponds_of_document : (p q : Proof) →
    (∀ a ∈ p.statements, ∀ b ∈ q.statements, TextsTell a.objects b.objects) →
    p.document = q.document → p.Corresponds Equal q
  | ⟨_, conclusion, rule, premises⟩, ⟨_, conclusion', rule', premises'⟩, tell, same => by
      rw [document, document] at same
      have parts : conclusion.document = conclusion'.document ∧ rule.name = rule'.name ∧
          documentsOfAll premises = documentsOfAll premises' := by
        simp only [Document.record.injEq, List.cons.injEq, Prod.mk.injEq, Document.text.injEq,
          Document.list.injEq, true_and, and_true] at same
        exact same.2
      have tellFirst := tell conclusion (by simp [statements]) conclusion' (by simp [statements])
      refine ⟨Proposition.beq_of_document tellFirst parts.1, Rule.name_injective parts.2.1, ?_⟩
      refine correspondAll_of_documents premises premises' (fun a isLeft b isRight => ?_) parts.2.2
      exact tell a (by simp [statements, isLeft]) b (by simp [statements, isRight])

theorem correspondAll_of_documents : (ps qs : List Proof) →
    (∀ a ∈ statementsOfAll ps, ∀ b ∈ statementsOfAll qs, TextsTell a.objects b.objects) →
    documentsOfAll ps = documentsOfAll qs → CorrespondAll Equal ps qs
  | [], [], _, _ => True.intro
  | [], q :: qs, _, same => by cases same
  | p :: ps, [], _, same => by cases same
  | p :: ps, q :: qs, tell, same => by
      rcases List.cons.inj same with ⟨sameFirst, sameOthers⟩
      refine ⟨corresponds_of_document p q (fun a isLeft b isRight => ?_) sameFirst,
        correspondAll_of_documents ps qs (fun a isLeft b isRight => ?_) sameOthers⟩
      · exact tell a (by simp [statementsOfAll, isLeft]) b (by simp [statementsOfAll, isRight])
      · exact tell a (by simp [statementsOfAll, isLeft]) b (by simp [statementsOfAll, isRight])

end

mutual

theorem document_of_corresponds : {p q : Proof} → p.Corresponds Equal q → p.document = q.document
  | ⟨_, conclusion, rule, premises⟩, ⟨_, conclusion', rule', premises'⟩,
    ⟨equal, sameRule, correspond⟩ => by
      rw [document, document, Proposition.text_of_beq equal, Proposition.document_of_beq equal,
        sameRule, documentsOfAll_of_correspondAll correspond]

theorem documentsOfAll_of_correspondAll : {ps qs : List Proof} → CorrespondAll Equal ps qs →
    documentsOfAll ps = documentsOfAll qs
  | [], [], _ => rfl
  | p :: ps, q :: qs, ⟨ofFirst, ofOthers⟩ => by
      rw [documentsOfAll, documentsOfAll, document_of_corresponds ofFirst,
        documentsOfAll_of_correspondAll ofOthers]

end

/-- Documents identify derivations up to the equality of their propositions, and propositions
up to equality. -/
theorem document_shows_derivation {p q : Proof} (apart : NamesApart (p.objects ++ q.objects)) :
    (p.document = q.document ↔ p.Corresponds Equal q) ∧
      ∀ {a b : Proposition}, NamesApart (a.objects ++ b.objects) →
        (a.document = b.document ↔ (a == b) = true) := by
  refine ⟨⟨fun same => ?_, document_of_corresponds⟩, fun apart' => ⟨fun same => ?_, ?_⟩⟩
  · refine corresponds_of_document p q (fun a isLeft b isRight => ?_) same
    exact apart.textsTell.mono (fun x => List.mem_flatMap_of_mem isLeft)
      (fun x => List.mem_flatMap_of_mem isRight)
  · exact Proposition.beq_of_document apart'.textsTell same
  · exact Proposition.document_of_beq

/-! One sample speaks of an unnamed object, the other of an object that is called like another
unnamed object is written. -/

namespace Sample

def about (x : Object) : Proof :=
  ⟨1, .quantified .universal x (.atom "A" [.object x, .set (.plain 1 "x")]), .postulate,
    [⟨2, .atom "A" [.object x, .set (.plain 2 "x")], .postulate, []⟩]⟩

def unnamed : Object := ⟨1, "", none, []⟩

def misleading : Object := ⟨3, "Obj(e_2)", none, []⟩

end Sample

open Sample in
theorem document_shows_unnamed :
    NamesApart ((about unnamed).objects ++ (about misleading).objects) ∧
      (about unnamed).document ≠ (about misleading).document := by
  have apart : NamesApart ((about unnamed).objects ++ (about misleading).objects) := by
    unfold NamesApart
    decide
  have different : ¬(about unnamed).Corresponds Equal (about misleading) := by
    rintro ⟨equal, _⟩
    cases equal
  exact ⟨apart, mt (document_shows_derivation apart).1.mp different⟩

end Proof

end Deduction
