import ScopedLisp.Proofs.Doubles
import ScopedLisp.Proofs.Handing

/-!
# The laws of equality

Equality of values is a partial equivalence: it is symmetric and transitive through lists of any
nesting, but a value that holds a `NaN` in its lists differs from itself. Bodies of closures are not
looked into, so what they hold makes no difference. Equal values look alike to every question that
the language asks of a value without looking inside: its type, its truth, its length.

Sameness is equality, but for lists: there it keeps only that of the empty list with itself.
-/

namespace ScopedLisp.Value

/-- A `NaN` stands somewhere in the value, which is it or a list. -/
inductive HoldsNaN : Value → Prop
  | float {x : Float} (h : x.isNaN = true) : HoldsNaN (.float x)
  | item {items : List Value} {v : Value} (hv : v ∈ items) (h : HoldsNaN v) :
      HoldsNaN (.list items)

theorem holdsNaN_float_iff {x : Float} : HoldsNaN (.float x) ↔ x.isNaN = true := by
  constructor
  · intro h
    cases h with
    | float h => exact h
  · exact .float

theorem holdsNaN_list_iff {items : List Value} :
    HoldsNaN (.list items) ↔ ∃ v ∈ items, HoldsNaN v := by
  constructor
  · intro h
    cases h with
    | item hv h => exact ⟨_, hv, h⟩
  · intro ⟨v, hv, h⟩
    exact .item hv h

/-! ## What a value is equal to -/

/-- The value is equal to itself only, and compares as it is written. -/
def isConstant : Value → Bool
  | integer _ | symbol _ | special _ | primitive .. => true
  | _ => false

theorem equal_iff_eq {a b : Value} (ha : a.isConstant = true) : a.equal b = true ↔ a = b := by
  cases a with
  | integer | symbol | special | primitive => cases b <;> simp [equal]
  | float | list | closure => cases ha

theorem equal_float_left_iff {x : Float} {b : Value} :
    (float x).equal b = true ↔ ∃ y, b = float y ∧ (x == y) = true := by
  cases b <;> simp [equal]

theorem equal_list_left_iff {as : List Value} {b : Value} :
    (list as).equal b = true ↔
      ∃ bs, b = list bs ∧ List.Forall₂ (fun a b => a.equal b = true) as bs := by
  cases b with
  | list bs => simp [equal_list_iff]
  | _ => simp [equal]

/-- Closures are equal by their number alone. -/
theorem equal_closure_left_iff {id : ClosureId} {params : List String} {body : Value}
    {home : FrameId} {b : Value} :
    (closure id params body home).equal b = true ↔
      ∃ params' body' home', b = closure id params' body' home' := by
  cases b with
  | closure => simp [equal, eq_comm (a := id)]
  | _ => simp [equal]

/-! ## A partial equivalence -/

/-- **A value is equal to itself, unless it holds a `NaN`.** -/
theorem equal_self_iff (a : Value) : a.equal a = true ↔ ¬ a.HoldsNaN := by
  induction a using treeInduction with
  | float x =>
    rw [holdsNaN_float_iff]
    simp [equal]
  | list items ih =>
    rw [equal_list_iff, List.forall₂_same, holdsNaN_list_iff]
    simp only [not_exists, not_and]
    exact forall₂_congr ih
  | integer | symbol | special | primitive =>
    refine iff_of_true ((equal_iff_eq rfl).mpr rfl) ?_
    intro h
    cases h
  | closure =>
    refine iff_of_true (equal_closure_left_iff.mpr ⟨_, _, _, rfl⟩) ?_
    intro h
    cases h

theorem equal_symm {a b : Value} (h : a.equal b = true) : b.equal a = true := by
  induction a using treeInduction generalizing b with
  | list as ih =>
    obtain ⟨bs, rfl, hitems⟩ := equal_list_left_iff.mp h
    have hboth := (List.forall₂_and_left as bs).mpr ⟨fun a ha => @ih a ha, hitems⟩
    exact equal_list_iff.mpr (hboth.imp fun _ _ hab => hab.1 hab.2).flip
  | float x =>
    obtain ⟨y, rfl, hxy⟩ := equal_float_left_iff.mp h
    exact equal_float_left_iff.mpr ⟨x, rfl, BEq.symm hxy⟩
  | integer | symbol | special | primitive =>
    obtain rfl := (equal_iff_eq rfl).mp h
    exact h
  | closure =>
    obtain ⟨_, _, _, rfl⟩ := equal_closure_left_iff.mp h
    exact equal_closure_left_iff.mpr ⟨_, _, _, rfl⟩

theorem equal_comm (a b : Value) : a.equal b = b.equal a :=
  Bool.eq_iff_iff.mpr ⟨equal_symm, equal_symm⟩

/-- Rows are equal to each other over a third row, if that goes for the items of the first one. -/
theorem forall₂_equal_trans {as bs cs : List Value}
    (h : ∀ a ∈ as, ∀ {b c : Value}, a.equal b = true → b.equal c = true → a.equal c = true)
    (hab : List.Forall₂ (fun a b => a.equal b = true) as bs)
    (hbc : List.Forall₂ (fun b c => b.equal c = true) bs cs) :
    List.Forall₂ (fun a c => a.equal c = true) as cs := by
  induction hab generalizing cs with
  | nil => exact hbc
  | cons hhead _ ih =>
    obtain ⟨c, rest, hc, hrest, rfl⟩ := List.forall₂_cons_left_iff.mp hbc
    have htail := ih (fun a ha => h a (List.mem_cons_of_mem _ ha)) hrest
    exact .cons (h _ List.mem_cons_self hhead hc) htail

theorem equal_trans {a b c : Value} (hab : a.equal b = true) (hbc : b.equal c = true) :
    a.equal c = true := by
  induction a using treeInduction generalizing b c with
  | list as ih =>
    obtain ⟨bs, rfl, hitems⟩ := equal_list_left_iff.mp hab
    obtain ⟨cs, rfl, hitems'⟩ := equal_list_left_iff.mp hbc
    exact equal_list_iff.mpr (forall₂_equal_trans ih hitems hitems')
  | float x =>
    obtain ⟨y, rfl, hxy⟩ := equal_float_left_iff.mp hab
    obtain ⟨z, rfl, hyz⟩ := equal_float_left_iff.mp hbc
    exact equal_float_left_iff.mpr ⟨z, rfl, BEq.trans hxy hyz⟩
  | integer | symbol | special | primitive =>
    obtain rfl := (equal_iff_eq rfl).mp hab
    exact hbc
  | closure =>
    obtain ⟨_, _, _, rfl⟩ := equal_closure_left_iff.mp hab
    obtain ⟨_, _, _, rfl⟩ := equal_closure_left_iff.mp hbc
    exact equal_closure_left_iff.mpr ⟨_, _, _, rfl⟩

/-! ## What equality keeps -/

theorem typeName_eq_of_equal {a b : Value} (h : a.equal b = true) : a.typeName = b.typeName := by
  cases a with
  | list as =>
    obtain ⟨bs, rfl, -⟩ := equal_list_left_iff.mp h
    rfl
  | float x =>
    obtain ⟨y, rfl, -⟩ := equal_float_left_iff.mp h
    rfl
  | integer | symbol | special | primitive =>
    obtain rfl := (equal_iff_eq rfl).mp h
    rfl
  | closure =>
    obtain ⟨_, _, _, rfl⟩ := equal_closure_left_iff.mp h
    rfl

theorem length_eq_of_equal {as bs : List Value} (h : (list as).equal (list bs) = true) :
    as.length = bs.length :=
  (equal_list_iff.mp h).length_eq

theorem isTruthy_eq_of_equal {a b : Value} (h : a.equal b = true) : a.isTruthy = b.isTruthy := by
  cases a with
  | list as =>
    obtain ⟨bs, rfl, hitems⟩ := equal_list_left_iff.mp h
    cases hitems with
    | nil => rfl
    | cons => rfl
  | float x =>
    obtain ⟨y, rfl, hxy⟩ := equal_float_left_iff.mp h
    simp only [isTruthy, bne]
    rw [BEq.congr_left hxy]
  | integer | symbol | special | primitive =>
    obtain rfl := (equal_iff_eq rfl).mp h
    rfl
  | closure =>
    obtain ⟨_, _, _, rfl⟩ := equal_closure_left_iff.mp h
    rfl

/-! ## Sameness -/

theorem same_list_iff {as bs : List Value} :
    (list as).same (list bs) = true ↔ as = [] ∧ bs = [] := by
  simp [same]

theorem same_eq_equal_of_not_lists {a b : Value} (h : ¬ (a.isList = true ∧ b.isList = true)) :
    a.same b = a.equal b := by
  cases a with
  | list as =>
    cases b with
    | list bs => exact absurd ⟨rfl, rfl⟩ h
    | _ => rfl
  | _ => rfl

theorem exists_items {v : Value} (h : v.isList = true) : ∃ items, v = list items := by
  cases v with
  | list items => exact ⟨items, rfl⟩
  | _ => cases h

theorem equal_of_same {a b : Value} (h : a.same b = true) : a.equal b = true := by
  by_cases hlists : a.isList = true ∧ b.isList = true
  · obtain ⟨as, rfl⟩ := exists_items hlists.1
    obtain ⟨bs, rfl⟩ := exists_items hlists.2
    obtain ⟨rfl, rfl⟩ := same_list_iff.mp h
    rfl
  · rwa [same_eq_equal_of_not_lists hlists] at h

theorem same_comm (a b : Value) : a.same b = b.same a := by
  by_cases hlists : a.isList = true ∧ b.isList = true
  · obtain ⟨as, rfl⟩ := exists_items hlists.1
    obtain ⟨bs, rfl⟩ := exists_items hlists.2
    rw [Bool.eq_iff_iff, same_list_iff, same_list_iff, and_comm]
  · rw [same_eq_equal_of_not_lists hlists, same_eq_equal_of_not_lists (mt And.symm hlists),
      equal_comm]

theorem same_trans {a b c : Value} (hab : a.same b = true) (hbc : b.same c = true) :
    a.same c = true := by
  have hac := equal_trans (equal_of_same hab) (equal_of_same hbc)
  by_cases hlists : a.isList = true ∧ c.isList = true
  · obtain ⟨as, rfl⟩ := exists_items hlists.1
    obtain ⟨cs, rfl⟩ := exists_items hlists.2
    -- what is equal to a list is a list, so all three are empty
    obtain ⟨bs, rfl, -⟩ := equal_list_left_iff.mp (equal_of_same hab)
    exact same_list_iff.mpr ⟨(same_list_iff.mp hab).1, (same_list_iff.mp hbc).2⟩
  · rwa [same_eq_equal_of_not_lists hlists]

/-! ## Equality in the language -/

theorem equal_float_iff {x y : Float} :
    (float x).equal (float y) = true ↔ Number.compare? x y = some .eq := by
  rw [equal, Number.beq_iff_compare?]

/-- **The laws of equality.** `equal?` is symmetric and transitive, and a value is equal to itself
unless a `NaN` stands in it or in its lists; what the body of a closure holds does not count. Equal
values have the same type and the same truth, and equal lists the same length. What is the same for
`eq?` is equal, and the other way round unless both are lists; two lists are the same only if both
are empty. Floats are equal as doubles are, so the two zeros are equal and an integer is equal to no
float. -/
theorem equality_laws (a b c : Value) :
    ((Operation.binary .equal).Answers [a, b] (.ofBool (a.equal b)) ∧
      (Operation.binary .eq).Answers [a, b] (.ofBool (a.same b))) ∧
    (a.equal b = b.equal a ∧
      (a.equal b = true → b.equal c = true → a.equal c = true)) ∧
    ((a.equal a = true ↔ ¬ a.HoldsNaN) ∧
      ∀ id params body home,
        (closure id params body home).equal (closure id params body home) = true) ∧
    (a.equal b = true → a.typeName = b.typeName ∧ a.isTruthy = b.isTruthy ∧
      ∀ as bs, a = list as → b = list bs → as.length = bs.length) ∧
    ((a.same b = true → a.equal b = true) ∧
      (¬ (a.isList = true ∧ b.isList = true) → a.same b = a.equal b)) ∧
    (a.same b = b.same a ∧ (a.same b = true → b.same c = true → a.same c = true) ∧
      ∀ as bs, (list as).same (list bs) = true ↔ as = [] ∧ bs = []) ∧
    ((∀ x y, (float x).equal (float y) = true ↔ Number.compare? x y = some .eq) ∧
      (∀ x y, x.isNaN = true → (float x).equal (float y) = false) ∧
      (float 0.0).equal (float (-0.0)) = true ∧
      ∀ n x, (integer n).equal (float x) = false ∧ (float x).equal (integer n) = false) := by
  refine ⟨⟨?_, ?_⟩, ⟨equal_comm a b, equal_trans⟩, ⟨equal_self_iff a, fun _ _ _ _ => ?_⟩,
    fun h => ⟨typeName_eq_of_equal h, isTruthy_eq_of_equal h, ?_⟩,
    ⟨equal_of_same, same_eq_equal_of_not_lists⟩,
    ⟨same_comm a b, same_trans, fun _ _ => same_list_iff⟩, fun _ _ => equal_float_iff,
    fun x y hx => ?_, rfl, fun _ _ => ⟨?_, ?_⟩⟩
  · exact Operation.answers_iff.mpr rfl
  · exact Operation.answers_iff.mpr rfl
  · exact equal_self_of_isProcedure rfl
  · rintro as bs rfl rfl
    exact length_eq_of_equal h
  · have hnone : Number.compare? x y = none := Number.compare?_eq_none_iff.mpr (.inl hx)
    rw [← Bool.not_eq_true, equal_float_iff, hnone]
    nofun
  · simp [equal]
  · simp [equal]

/-- A list with a zero in a list is equal to the list with the other zero, and so to itself; the two
are not the same, and the symbols in front of them are. -/
theorem equality_laws_zeros :
    let a := list [symbol "x", list [float 0.0]]
    let b := list [symbol "x", list [float (-0.0)]]
    a.equal b = true ∧ a.equal a = true ∧ a.typeName = b.typeName ∧ a.same b = false ∧
      (symbol "x").same (symbol "x") = (symbol "x").equal (symbol "x") ∧
      (list [float (0.0 / 0.0)]).equal (list [float (0.0 / 0.0)]) = false := by
  intro a b
  have hab : a.equal b = true := rfl
  have hlaws := equality_laws a b a
  have hba : b.equal a = true := by rw [← hlaws.2.1.1, hab]
  have hsymbols := equality_laws (symbol "x") (symbol "x") (symbol "x")
  have hnan := equality_laws (list [float (0.0 / 0.0)]) a b
  refine ⟨hab, hlaws.2.1.2 hab hba, (hlaws.2.2.2.1 hab).1, rfl,
    hsymbols.2.2.2.2.1.2 (by decide), ?_⟩
  rw [← Bool.not_eq_true, hnan.2.2.1.1, not_not]
  exact .item List.mem_cons_self (.float (by decide))

end ScopedLisp.Value
