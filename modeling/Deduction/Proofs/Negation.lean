import Deduction.Proofs.Equality
import Deduction.Proofs.Success

/-! # Negation

A negation is built in collapsed form, but some rules also conclude an implication of the
contradiction by another one. Two statements contradict each other if one is such an
implication by the other, in whichever form and order they are given. Turning an
implication into a disjunction and back collapses two negations of its antecedent at a time,
as long as there are two. -/

namespace Deduction

/-! ## Contradictory propositions -/

namespace Proposition

theorem not_cases (p : Proposition) :
    (∃ q : Proposition, p = q.implies falsum ∧ p.not = q) ∨ p.not = p.implies falsum := by
  unfold Proposition.not
  split
  · exact .inl ⟨_, rfl, rfl⟩
  · exact .inr rfl

theorem not_of_not_negation {p : Proposition} (notNegation : ∀ q, p ≠ implies q falsum) :
    p.not = p.implies falsum := by
  rcases p.not_cases with ⟨q, isNegation, _⟩ | isBuilt
  · exact absurd isNegation (notNegation q)
  · exact isBuilt

theorem beq_implies_falsum {p q : Proposition} (equal : (p == q) = true) :
    (p.implies falsum == q.implies falsum) = true :=
  beq_binary equal (beq_refl falsum)

theorem eq_of_beq_implies_falsum {p q : Proposition} (equal : (p == q.implies falsum) = true) :
    ∃ q' : Proposition, p = q'.implies falsum ∧ (q' == q) = true := by
  obtain ⟨q', bottom, rfl, leftEqual, bottomEqual⟩ := eq_of_binary_beq (beq_symm equal)
  rw [eq_of_falsum_beq bottomEqual]
  exact ⟨q', rfl, beq_symm leftEqual⟩

end Proposition

namespace Inference

open Proposition

variable {p q p' q' : Proposition}

/-- The two tests for a contradiction together accept one form in either direction. -/
theorem contradicts_iff :
    contradicts p q = true ↔
      (q == p.implies .falsum) = true ∨ (p == q.implies .falsum) = true := by
  constructor
  · intro contradicts
    rcases Bool.or_eq_true_iff.mp contradicts with collapsed | literal
    · rcases p.not_cases with ⟨r, isNegation, isNot⟩ | isNot
      · rw [isNot] at collapsed
        rw [isNegation]
        exact .inr (beq_implies_falsum (beq_symm collapsed))
      · rw [isNot] at collapsed
        exact .inl collapsed
    · split at literal
      · rename_i r isNegated
        rw [eq_of_negated isNegated]
        exact .inl (beq_implies_falsum literal)
      · cases literal
  · rintro (denies | denied)
    · obtain ⟨r, rfl, equal⟩ := eq_of_beq_implies_falsum denies
      exact Bool.or_eq_true_iff.mpr (.inr equal)
    · obtain ⟨r, rfl, equal⟩ := eq_of_beq_implies_falsum denied
      exact Bool.or_eq_true_iff.mpr (.inl (beq_symm equal))

theorem contradicts_iff_exists :
    contradicts p q = true ↔
      ∃ x : Proposition,
        (p == x) = true ∧ (q == x.implies .falsum) = true ∨
        (q == x) = true ∧ (p == x.implies .falsum) = true := by
  rw [contradicts_iff]
  constructor
  · rintro (denies | denied)
    · exact ⟨p, .inl ⟨beq_refl p, denies⟩⟩
    · exact ⟨q, .inr ⟨beq_refl q, denied⟩⟩
  · rintro ⟨x, ⟨isX, denies⟩ | ⟨isX, denied⟩⟩
    · exact .inl (beq_trans denies (beq_implies_falsum (beq_symm isX)))
    · exact .inr (beq_trans denied (beq_implies_falsum (beq_symm isX)))

theorem contradicts_comm : contradicts p q = true ↔ contradicts q p = true := by
  rw [contradicts_iff, contradicts_iff, or_comm]

theorem contradicts_congr (left : (p == p') = true) (right : (q == q') = true)
    (contradicts : contradicts p q = true) : Inference.contradicts p' q' = true := by
  rw [contradicts_iff] at contradicts ⊢
  refine contradicts.imp (fun denies => ?_) (fun denied => ?_)
  · exact beq_trans (beq_symm right) (beq_trans denies (beq_implies_falsum left))
  · exact beq_trans (beq_symm left) (beq_trans denied (beq_implies_falsum right))

theorem contradicts_congr_iff (left : (p == p') = true) (right : (q == q') = true) :
    contradicts p q = true ↔ contradicts p' q' = true :=
  ⟨contradicts_congr left right, contradicts_congr (beq_symm left) (beq_symm right)⟩

theorem contradicts_not (p : Proposition) : contradicts p p.not = true :=
  Bool.or_eq_true_iff.mpr (.inl (beq_refl p.not))

theorem denied_of_contradicts (rule : Rule) (contradicts : contradicts p q = true) :
    denied rule p q = .ok () :=
  if_pos contradicts

theorem contradiction_eq_ok_iff {conclusion : Proposition} :
    contradiction p q = .ok conclusion ↔ contradicts p q = true ∧ conclusion = .falsum := by
  constructor
  · exact ok_of_contradiction
  · rintro ⟨contradicts, rfl⟩
    rw [contradiction, denied_of_contradicts _ contradicts]
    rfl

theorem modusTollens_eq_ok_iff {a b conclusion : Proposition} :
    modusTollens (a.implies b) q = .ok conclusion ↔
      contradicts b q = true ∧ conclusion = a.not := by
  constructor
  · intro ok
    obtain ⟨a', b', isImplication, contradicts, isNot⟩ := ok_of_modusTollens ok
    cases isImplication
    exact ⟨contradicts, isNot⟩
  · rintro ⟨contradicts, rfl⟩
    change (denied .modusTollens b q >>= fun _ => pure a.not) = _
    rw [denied_of_contradicts _ contradicts]
    rfl

end Inference

/-! ## Accepted contradictions -/

namespace Kernel

variable {store : Store}

def Succeeds (action : Kernel Proof) (store : Store) : Prop :=
  ∃ proof after, outcome action store = (.ok proof, after)

theorem succeeds_conclude_iff {attempt : Except Fault Proposition} {rule : Rule}
    {premises : List Proof} :
    Succeeds (conclude attempt rule premises) store ↔ ∃ conclusion, attempt = .ok conclusion := by
  constructor
  · rintro ⟨proof, after, ok⟩
    exact ⟨proof.conclusion, (ok_of_conclude ok).1⟩
  · rintro ⟨conclusion, ok⟩
    obtain ⟨proof, after, issued, _⟩ := proves_conclude ok rule premises store
    exact ⟨proof, after, issued⟩

theorem succeeds_contradiction_iff {a denial : Proof} :
    Succeeds (contradiction a denial) store ↔
      Inference.contradicts a.conclusion denial.conclusion = true := by
  rw [contradiction, succeeds_conclude_iff]
  simp only [Inference.contradiction_eq_ok_iff, exists_and_left, exists_eq, and_true]

theorem succeeds_modusTollens_iff {ab denial : Proof} {a b : Proposition}
    (isImplication : ab.conclusion = a.implies b) :
    Succeeds (modusTollens ab denial) store ↔
      Inference.contradicts b denial.conclusion = true := by
  rw [modusTollens, isImplication, succeeds_conclude_iff]
  simp only [Inference.modusTollens_eq_ok_iff, exists_and_left, exists_eq, and_true]

theorem conclusion_of_modusTollens {ab denial n : Proof} {a b : Proposition} {after : Store}
    (isImplication : ab.conclusion = a.implies b)
    (ok : outcome (modusTollens ab denial) store = (.ok n, after)) : n.conclusion = a.not := by
  rw [modusTollens, isImplication] at ok
  exact (Inference.modusTollens_eq_ok_iff.mp (ok_of_conclude ok).1).2

/-- A contradiction is accepted exactly if one statement is equal to the implication of the
contradiction by the other, in either order. Modus tollens accepts exactly what contradicts
the consequent, and concludes what contradicts the antecedent. -/
theorem contradiction_exact_and_modusTollens_agrees :
    (∀ (a b : Proof) (store : Store),
      (Succeeds (contradiction a b) store ↔
        ∃ x : Proposition,
          (a.conclusion == x) = true ∧ (b.conclusion == x.implies .falsum) = true ∨
          (b.conclusion == x) = true ∧ (a.conclusion == x.implies .falsum) = true) ∧
      (Succeeds (contradiction a b) store ↔ Succeeds (contradiction b a) store)) ∧
    ∀ (ab denial : Proof) (antecedent consequent : Proposition),
      (ab.conclusion == antecedent.implies consequent) = true →
      (∀ b : Proof, (b.conclusion == consequent) = true → ∀ store later : Store,
        (Succeeds (modusTollens ab denial) store ↔ Succeeds (contradiction b denial) later)) ∧
      ∀ (n : Proof) (store after : Store),
        outcome (modusTollens ab denial) store = (.ok n, after) →
        ∀ a na : Proof, (a.conclusion == antecedent) = true →
          (na.conclusion == n.conclusion) = true → ∀ later : Store,
          Succeeds (contradiction a na) later ∧ Succeeds (contradiction na a) later := by
  refine ⟨fun a b store => ⟨?_, ?_⟩, fun ab denial antecedent consequent isImplication => ?_⟩
  · rw [succeeds_contradiction_iff, Inference.contradicts_iff_exists]
  · rw [succeeds_contradiction_iff, succeeds_contradiction_iff, Inference.contradicts_comm]
  · obtain ⟨a', b', isWritten, sameAntecedent, sameConsequent⟩ :=
      Proposition.eq_of_binary_beq (Proposition.beq_symm isImplication)
    constructor
    · intro b isConsequent store later
      rw [succeeds_modusTollens_iff isWritten, succeeds_contradiction_iff]
      have sameStatement : (b' == b.conclusion) = true :=
        Proposition.beq_symm (Proposition.beq_trans isConsequent sameConsequent)
      exact Inference.contradicts_congr_iff sameStatement (Proposition.beq_refl _)
    · intro n store after ok a na isAntecedent isConclusion later
      have sameStatement : (a' == a.conclusion) = true :=
        Proposition.beq_symm (Proposition.beq_trans isAntecedent sameAntecedent)
      rw [conclusion_of_modusTollens isWritten ok] at isConclusion
      have contradicts : Inference.contradicts a.conclusion na.conclusion = true :=
        Inference.contradicts_congr sameStatement (Proposition.beq_symm isConclusion)
          (Inference.contradicts_not a')
      exact ⟨succeeds_contradiction_iff.mpr contradicts,
        succeeds_contradiction_iff.mpr (Inference.contradicts_comm.mp contradicts)⟩

/-! The sample derives `¬C` from `¬¬C ⇒ ¬C` and `C`, where the double negation was not
collapsed. -/

namespace Sample

def plain : Proposition := .atom "C" []

def denial : Proposition := plain.implies .falsum

def doubleDenial : Proposition := denial.implies .falsum

def assumed (serial : Nat) (p : Proposition) : Proof := ⟨serial, p, .postulate, []⟩

end Sample

open Sample in
theorem contradiction_exact_and_modusTollens_agrees_doubleDenial :
    Succeeds (modusTollens (assumed 1 (doubleDenial.implies denial)) (assumed 2 plain)) .empty ∧
      Succeeds (contradiction (assumed 3 denial) (assumed 2 plain)) .empty ∧
      Succeeds (contradiction (assumed 2 plain) (assumed 3 denial)) .empty ∧
      Succeeds (contradiction (assumed 4 doubleDenial) (assumed 3 denial)) .empty ∧
      Succeeds (contradiction (assumed 3 denial) (assumed 4 doubleDenial)) .empty ∧
      ¬Succeeds (contradiction (assumed 4 doubleDenial) (assumed 2 plain)) .empty := by
  obtain ⟨exact, agrees⟩ := contradiction_exact_and_modusTollens_agrees
  obtain ⟨accepts, again⟩ := agrees (assumed 1 (doubleDenial.implies denial)) (assumed 2 plain)
    doubleDenial denial (by decide)
  have isConsequent : ((assumed 3 denial).conclusion == denial) = true := by decide
  have opposed : Succeeds (contradiction (assumed 3 denial) (assumed 2 plain)) .empty :=
    (exact _ _ _).1.mpr ⟨plain, .inr ⟨by decide, by decide⟩⟩
  obtain ⟨both, reversed⟩ := again _ .empty _ rfl (assumed 4 doubleDenial)
    (assumed 3 denial) (by decide) (by decide) .empty
  refine ⟨(accepts _ isConsequent .empty .empty).mpr opposed, opposed, (exact _ _ _).2.mp opposed,
    both, reversed, ?_⟩
  rw [succeeds_contradiction_iff]
  decide

end Kernel

/-! ## Round trips between implication and disjunction -/

namespace Proposition

/-- The proposition under a number of negations, none of which is collapsed. -/
def underNegations (p : Proposition) : Nat → Proposition
  | 0 => p
  | layers + 1 => (p.underNegations layers).implies falsum

variable {core : Proposition}

/-- Negating twice takes two negations away, or adds one and takes it away again. -/
theorem not_not_underNegations (notNegation : ∀ q, core ≠ implies q falsum) (layers : Nat) :
    (core.underNegations layers).not.not =
      core.underNegations (max (layers - 2) (layers % 2)) := by
  have collapse : ∀ count, (core.underNegations (count + 1)).not = core.underNegations count :=
    fun _ => rfl
  have build : (core.underNegations 0).not = core.underNegations 1 :=
    not_of_not_negation notNegation
  match layers with
  | 0 =>
      rw [build, collapse]
      rfl
  | 1 =>
      rw [collapse, build]
      rfl
  | count + 2 =>
      have remaining : max (count + 2 - 2) ((count + 2) % 2) = count := by omega
      rw [collapse, collapse, remaining]

/-- The number of negations can be seen up to equality. -/
theorem eq_of_underNegations_beq (notNegation : ∀ q, core ≠ implies q falsum) {layers others : Nat}
    (equal : (core.underNegations layers == core.underNegations others) = true) :
    layers = others := by
  have notBoth : ∀ count, (core == core.underNegations (count + 1)) ≠ true := by
    intro count isNegation
    obtain ⟨q, isImplication, _⟩ := eq_of_beq_implies_falsum isNegation
    exact notNegation q isImplication
  induction layers generalizing others with
  | zero =>
      cases others with
      | zero => rfl
      | succ count => exact absurd equal (notBoth count)
  | succ layers induction =>
      cases others with
      | zero => exact absurd (beq_symm equal) (notBoth layers)
      | succ count =>
          obtain ⟨_, _, isImplication, inside, _⟩ := eq_of_binary_beq equal
          cases isImplication
          rw [induction inside]

end Proposition

namespace Kernel

variable {ab : Proof} {a b core consequent : Proposition}

def roundTrip (ab : Proof) : Kernel Proof := do
  let alternative ← implicationToOr ab
  orToImplication alternative

def roundTrips : Nat → Proof → Kernel Proof
  | 0, ab => return ab
  | trips + 1, ab => do
      let back ← roundTrip ab
      roundTrips trips back

theorem proves_roundTrip (isImplication : ab.conclusion = a.implies b) (store : Store) :
    Proves (roundTrip ab) store (a.not.not.implies b) store.created := by
  have toOr : Inference.implicationToOr ab.conclusion = .ok (a.not.or b) := by
    rw [isImplication]
    rfl
  obtain ⟨alternative, middle, ok, isAlternative, created⟩ :=
    proves_conclude toOr .implicationToOr [ab] store
  have toImplication :
      Inference.orToImplication alternative.conclusion = .ok (a.not.not.implies b) := by
    rw [isAlternative]
    rfl
  have proves := proves_conclude toImplication .orToImplication [alternative] middle
  rw [created] at proves
  unfold Proves roundTrip
  rw [implicationToOr, outcome_bind_of_ok ok]
  exact proves

theorem proves_roundTrips (notNegation : ∀ q, core ≠ .implies q .falsum) {layers : Nat}
    (isImplication : ab.conclusion = (core.underNegations layers).implies consequent)
    (trips : Nat) (store : Store) :
    Proves (roundTrips trips ab) store
      ((core.underNegations (max (layers - 2 * trips) (layers % 2))).implies consequent)
      store.created := by
  induction trips generalizing ab layers store with
  | zero =>
      have unchanged : max (layers - 2 * 0) (layers % 2) = layers := by omega
      rw [unchanged]
      exact ⟨ab, store, rfl, isImplication, rfl⟩
  | succ trips induction =>
      obtain ⟨back, middle, ok, isBack, created⟩ := proves_roundTrip isImplication store
      rw [Proposition.not_not_underNegations notNegation] at isBack
      have proves := induction isBack middle
      have remaining : max (max (layers - 2) (layers % 2) - 2 * trips)
          (max (layers - 2) (layers % 2) % 2) = max (layers - 2 * (trips + 1)) (layers % 2) := by
        omega
      rw [remaining, created] at proves
      unfold Proves roundTrips
      rw [outcome_bind_of_ok ok]
      exact proves

/-- Each round trip takes two negations off the antecedent as long as there are two. So an
implication comes back unchanged exactly if its antecedent has at most one, and after as
many trips as there are pairs of negations nothing changes any more. -/
theorem roundTrips_collapse_pairs (notNegation : ∀ q, core ≠ .implies q .falsum) {layers : Nat}
    (isImplication : ab.conclusion = (core.underNegations layers).implies consequent)
    (trips : Nat) (store : Store) :
    ∃ proof after, outcome (roundTrips trips ab) store = (.ok proof, after) ∧
      proof.conclusion =
        (core.underNegations (max (layers - 2 * trips) (layers % 2))).implies consequent ∧
      ((proof.conclusion == ab.conclusion) = true ↔ layers ≤ 1 ∨ trips = 0) ∧
      (layers ≤ 1 ∨ trips = 0 → proof.conclusion = ab.conclusion) ∧
      (layers / 2 ≤ trips →
        proof.conclusion = (core.underNegations (layers % 2)).implies consequent) := by
  obtain ⟨proof, after, ok, isConclusion, _⟩ := proves_roundTrips notNegation isImplication trips
    store
  have unchanged : layers ≤ 1 ∨ trips = 0 → proof.conclusion = ab.conclusion := by
    intro few
    have same : max (layers - 2 * trips) (layers % 2) = layers := by omega
    rw [isConclusion, isImplication, same]
  refine ⟨proof, after, ok, isConclusion, ⟨fun equal => ?_, fun few => ?_⟩, unchanged, ?_⟩
  · rw [isConclusion, isImplication] at equal
    obtain ⟨_, _, isWritten, antecedentEqual, _⟩ := Proposition.eq_of_binary_beq equal
    cases isWritten
    have same := Proposition.eq_of_underNegations_beq notNegation antecedentEqual
    omega
  · rw [unchanged few]
    exact Proposition.beq_refl _
  · intro enough
    have rest : max (layers - 2 * trips) (layers % 2) = layers % 2 := by omega
    rw [isConclusion, rest]

open Sample in
/-- Of five negations, two round trips leave one. -/
theorem roundTrips_collapse_five :
    (∀ q, plain ≠ .implies q .falsum) ∧
      ∃ proof after,
        outcome (roundTrips 2 (assumed 1 ((plain.underNegations 5).implies plain))) .empty =
          (.ok proof, after) ∧
        proof.conclusion = denial.implies plain ∧
        (proof.conclusion == (plain.underNegations 5).implies plain) = false := by
  have notNegation : ∀ q, plain ≠ .implies q .falsum := by rintro q ⟨⟩
  have isImplication : (assumed 1 ((plain.underNegations 5).implies plain)).conclusion =
      (plain.underNegations 5).implies plain := rfl
  obtain ⟨proof, after, ok, _, same, _, settled⟩ :=
    roundTrips_collapse_pairs notNegation isImplication 2 .empty
  refine ⟨notNegation, proof, after, ok, settled (by decide), ?_⟩
  exact Bool.eq_false_iff.mpr (mt same.mp (by decide))

end Kernel

end Deduction
