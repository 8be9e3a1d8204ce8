import ScopedLisp.Proofs.Handing
import ScopedLisp.Proofs.Ledger

/-!
# Procedures are told apart by where they come from

The equality of the language looks at nothing but a number in a closure, and at nothing but a table
entry and a root in a primitive. That this is identity is a matter of whole sessions: two closures
are equal exactly if one evaluation of a `lambda` form has made both, and two primitives exactly if
the root frame had them under one name at first. Names that they are bound to later play no part.
-/

namespace ScopedLisp

open Eval

namespace Value

def IsLambda (v : Value) : Prop := ∃ id params body home, v = .closure id params body home

def IsBuiltin (v : Value) : Prop := ∃ op home, v = .primitive op home

theorem IsLambda.isProcedure {v : Value} (h : v.IsLambda) : v.isProcedure = true := by
  obtain ⟨_, _, _, _, rfl⟩ := h
  rfl

theorem IsBuiltin.isProcedure {v : Value} (h : v.IsBuiltin) : v.isProcedure = true := by
  obtain ⟨_, _, rfl⟩ := h
  rfl

end Value

/-! ## Equality through lists -/

/-- No floats, save in bodies of closures. -/
inductive Value.Exact : Value → Prop
  | leaf {v : Value} (hlist : v.isList = false) (hfloat : ∀ a, v ≠ .float a) : Exact v
  | list {items : List Value} (h : ∀ v ∈ items, Exact v) : Exact (.list items)

theorem forall₂_equal_iff {as bs : List Value}
    (h : ∀ a ∈ as, ∀ b ∈ bs, (a.equal b = true ↔ a = b)) :
    List.Forall₂ (fun a b => a.equal b = true) as bs ↔ as = bs := by
  induction as generalizing bs with
  | nil => rw [List.forall₂_nil_left_iff, eq_comm]
  | cons a as ih =>
    cases bs with
    | nil => exact ⟨nofun, nofun⟩
    | cons b bs =>
      have hrest : List.Forall₂ (fun a b => a.equal b = true) as bs ↔ as = bs :=
        ih fun a ha b hb => h a (List.mem_cons_of_mem _ ha) b (List.mem_cons_of_mem _ hb)
      rw [List.forall₂_cons, h a List.mem_cons_self b List.mem_cons_self, hrest, List.cons.injEq]

/-- **Equality is sameness**, through lists down to procedures, if it is for closures. -/
theorem Value.Exact.equal_iff {P : Value → Prop}
    (hP : ∀ {x y}, P x → P y → x.IsLambda → x.equal y = true → x = y) {x y : Value}
    (hexact : x.Exact) (hx : x.EveryProcedure P) (hy : y.EveryProcedure P) :
    x.equal y = true ↔ x = y := by
  induction hexact generalizing y with
  | list _ ih =>
    cases y with
    | list items =>
      rw [equal_list_iff, Value.list.injEq]
      refine forall₂_equal_iff fun a ha b hb => ih a ha ?_ ?_
      · exact everyProcedure_list.mp hx a ha
      · exact everyProcedure_list.mp hy b hb
    | _ => simp [equal]
  | @leaf x hlist hfloat =>
    cases x with
    | list => cases hlist
    | float a => exact absurd rfl (hfloat a)
    | integer | symbol | special | primitive => cases y <;> simp [equal]
    | closure id params body home =>
      cases y with
      | closure id' params' body' home' =>
        have hpx := (everyProcedure_closure.mp hx).1
        have hpy := (everyProcedure_closure.mp hy).1
        constructor
        · exact hP hpx hpy ⟨id, params, body, home, rfl⟩
        · intro heq
          rw [← heq]
          exact equal_self_of_isProcedure rfl
      | _ => simp [equal]

/-! ## The table of a root frame -/

namespace Bindings

/-- In bindings without a name twice, every entry is found. -/
theorem get?_of_mem {b : Bindings} (hnames : (b.map Prod.fst).Nodup) {name : String} {v : Value}
    (h : (name, v) ∈ b) : b.get? name = some v := by
  induction b with
  | nil => cases h
  | cons entry rest ih =>
    obtain ⟨n, x⟩ := entry
    rw [List.map_cons, List.nodup_cons] at hnames
    rw [get?]
    rcases List.mem_cons.mp h with heq | hrest
    · cases heq
      exact if_pos rfl
    · have hne : n ≠ name := by
        rintro rfl
        exact hnames.1 (List.mem_map.mpr ⟨(n, v), hrest, rfl⟩)
      rw [if_neg hne]
      exact ih hnames.2 hrest

end Bindings

theorem get?_rootBindings (op : Primitive) (home : FrameId) :
    (Store.rootBindings home).get? op.name = some (.primitive op home) := by
  have hnames : ((Store.rootBindings home).map Prod.fst).Nodup := by
    have hfst : (Store.rootBindings home).map Prod.fst =
        Primitive.all.map Primitive.name ++ ["pi"] := by simp [Store.rootBindings]
    have hpi : ∀ name ∈ Primitive.all.map Primitive.name, ∀ other ∈ ["pi"], name ≠ other := by
      decide
    rw [hfst]
    exact List.nodup_append.mpr ⟨Primitive.nodup_names, List.pairwise_singleton _ "pi", hpi⟩
  refine Bindings.get?_of_mem hnames ?_
  exact List.mem_append_left _ (List.mem_map_of_mem (Primitive.mem_all op))

namespace Session

/-- The procedures of a new session: primitives that it binds under their names. -/
def Initial (s : Session) (x : Value) : Prop :=
  ∃ op home, x = .primitive op home ∧ s.get? op.name = some x

/-- A new session has no other procedures, and binds none of them under another name. -/
theorem New.allBound {s : Session} (h : s.New) : s.store.AllBound fun _ name v =>
    (∀ op home, v = .primitive op home → name = op.name) ∧ v.EveryProcedure s.Initial := by
  cases h with
  | bare => exact Store.AllBound.push Store.allBound_empty nofun
  | start =>
    refine Store.AllBound.push Store.allBound_empty fun name v hv => ?_
    rcases List.mem_append.mp (Bindings.mem_of_get? hv) with hentry | hentry
    · obtain ⟨op, -, hpair⟩ := List.mem_map.mp hentry
      cases hpair
      refine ⟨fun op' home heq => by cases heq; rfl, fun x hx _ => ?_⟩
      cases hx
      exact ⟨op, _, rfl, Store.get?_push_self (get?_rootBindings op _)⟩
    · cases List.mem_singleton.mp hentry
      exact ⟨nofun, Value.everyProcedure_leaf rfl rfl⟩

theorem New.everyProcedure {s : Session} (h : s.New) {P : Value → Prop}
    (hP : ∀ {x}, s.Initial x → P x) : s.store.EveryProcedure P :=
  h.allBound.mono fun hv x hx hprocedure => hP (hv.2 x hx hprocedure)

/-- Primitives that a session began with are equal if it had them under one name. -/
theorem New.equal_iff {s : Session} (h : s.New) {n m : String} {x y : Value}
    (hx : s.get? n = some x) (hy : s.get? m = some y) (hbuiltin : x.IsBuiltin)
    (hbuiltin' : y.IsBuiltin) : x.equal y = true ↔ n = m := by
  obtain ⟨op, home, rfl⟩ := hbuiltin
  obtain ⟨op', home', rfl⟩ := hbuiltin'
  obtain ⟨_, -, hn, -⟩ := Store.AllBound.get? h.allBound hx
  obtain ⟨_, -, hm, -⟩ := Store.AllBound.get? h.allBound hy
  constructor
  · intro hequal
    have hsame : op = op' ∧ home = home' := by simpa [Value.equal] using hequal
    rw [hn op home rfl, hm op' home' rfl, hsame.1]
  · rintro rfl
    rw [hx] at hy
    cases hy
    exact Value.equal_self_of_isProcedure rfl

/-! ## Whole sessions -/

variable {s₀ s : Session} {log : List Visit}

/-- The procedure was made by a `lambda` form that is in the log, or was there at first. -/
def Owned (s₀ : Session) (log : List Visit) (x : Value) : Prop := x ∈ made log ∨ s₀.Initial x

theorem Owned.mem_made {x : Value} (h : Owned s₀ log x) (hlambda : x.IsLambda) : x ∈ made log := by
  rcases h with hmade | ⟨op, home, rfl, -⟩
  · exact hmade
  · obtain ⟨_, _, _, _, heq⟩ := hlambda
    cases heq

/-- Every procedure that is seen in a session is accounted for. -/
theorem History.owned (hnew : s₀.New) (h : History s₀ log s) {x : Value} (hx : Seen log s x) :
    x.EveryProcedure (Owned s₀ log) :=
  h.everyProcedure (hnew.everyProcedure .inr) (fun _ => .inl) hx

/-- Equal closures of a session are the same. -/
theorem History.eq_of_equal (h : History s₀ log s) {x y : Value} (hx : Owned s₀ log x)
    (hy : Owned s₀ log y) (hlambda : x.IsLambda) (hequal : x.equal y = true) : x = y := by
  have hlambda' : y.IsLambda := by
    obtain ⟨_, _, _, _, rfl⟩ := hlambda
    cases y with
    | closure id params body home => exact ⟨id, params, body, home, rfl⟩
    | _ => simp [Value.equal] at hequal
  exact h.numbered.eq_of_equal (hx.mem_made hlambda) (hy.mem_made hlambda') hequal

/-- **What a `lambda` form makes is new**: it is unequal to all closures that were made or bound
before. -/
theorem History.fresh (hnew : s₀.New) (h : History s₀ log s) {earlier later : List Visit}
    {visit : Visit} (hlog : log = earlier ++ visit :: later) {x y : Value}
    (hx : visit.made? = some x)
    (hy : y ∈ made earlier ∨ y.IsLambda ∧ ∃ f name v, visit.before.binding? f name = some v ∧
      Value.Occurs y v) : x.equal y = false ∧ y.equal x = false := by
  have hy : y ∈ made earlier := by
    rcases hy with hy | ⟨hlambda, f, name, v, hv, hoccurs⟩
    · exact hy
    · have hbefore : visit.before.EveryProcedure (Owned s₀ earlier) :=
        h.account.before (hnew.everyProcedure .inr) earlier visit later hlog fun _ => .inl
      exact (hbefore f name v hv y hoccurs hlambda.isProcedure).mem_made hlambda
  have hnumbered := h.numbered
  rw [hlog, made_append, made_cons_of_some hx] at hnumbered
  exact (hnumbered.not_equal hy List.mem_cons_self).symm

/-- Closures are equal if one evaluation made both. -/
theorem History.equal_iff (h : History s₀ log s) {x y : Value} (hx : Owned s₀ log x)
    (hy : Owned s₀ log y) (hlambda : x.IsLambda) :
    x.equal y = true ↔ ∃ visit ∈ log, visit.made? = some x ∧ visit.made? = some y := by
  constructor
  · intro hequal
    obtain rfl := h.eq_of_equal hx hy hlambda hequal
    obtain ⟨visit, hvisit, hmade⟩ := List.mem_filterMap.mp (hx.mem_made hlambda)
    exact ⟨visit, hvisit, hmade, hmade⟩
  · rintro ⟨visit, -, hmadex, hmadey⟩
    obtain ⟨_, _, _, _, rfl⟩ := hlambda
    cases hmadex.symm.trans hmadey
    exact Value.equal_self_of_isProcedure rfl

/-- A primitive that is owned is one that the session began with. -/
theorem History.exists_get? (h : History s₀ log s) {x : Value} (hx : Owned s₀ log x)
    (hbuiltin : x.IsBuiltin) : ∃ n, s₀.get? n = some x := by
  obtain ⟨op, home, rfl⟩ := hbuiltin
  rcases hx with hmade | ⟨_, _, heq, hget⟩
  · obtain ⟨n, hn⟩ := List.mem_iff_getElem?.mp hmade
    obtain ⟨_, _, _, heq⟩ := h.numbered.number n _ hn
    cases heq
  · exact ⟨_, hget⟩

/-- **Procedures are equal by identity, over whole sessions.** Closures that are seen anywhere are
equal if one evaluation of a `lambda` form made both, and then they are the same in every part; so
are values with closures in them, floats apart. What an evaluation of a `lambda` form makes is
unequal to all closures that were there before. A copy is the original, and equal to it if it is a
procedure. Primitives are equal if the session began with them under one name. -/
theorem procedures_identified (hnew : s₀.New) (h : History s₀ log s) :
    (∀ visit ∈ log, ∃ depth, visit.outcome = eval depth visit.expr visit.frame visit.before) ∧
    (∀ x y, Seen log s x → Seen log s y → x.IsLambda → y.IsLambda →
      (x.equal y = true ↔ ∃ visit ∈ log, visit.made? = some x ∧ visit.made? = some y) ∧
      (x.equal y = true → x = y)) ∧
    (∀ x y, Seen log s x → Seen log s y → x.Exact → (x.equal y = true ↔ x = y)) ∧
    (∀ earlier visit later x y, log = earlier ++ visit :: later → visit.made? = some x →
      (y ∈ made earlier ∨ y.IsLambda ∧ ∃ f name v, visit.before.binding? f name = some v ∧
        Value.Occurs y v) →
      x.equal y = false ∧ y.equal x = false) ∧
    (∀ x y, Copied x y →
      y = x ∧ (x.isProcedure = true → y.equal x = true ∧ y.same x = true)) ∧
    ∀ x y, Seen log s x → Seen log s y → x.IsBuiltin → y.IsBuiltin →
      (∃ n, s₀.get? n = some x) ∧ (∃ m, s₀.get? m = some y) ∧
        ∀ n m, s₀.get? n = some x → s₀.get? m = some y → (x.equal y = true ↔ n = m) := by
  have howned {x : Value} (hx : Seen log s x) (hprocedure : x.isProcedure = true) :
      Owned s₀ log x := h.owned hnew hx x .self hprocedure
  refine ⟨h.outcome_of_mem, fun x y hx hy hlambda hlambda' => ?_,
    fun x y hx hy hexact => ?_, ?_, ?_, ?_⟩
  · have hxowned := howned hx hlambda.isProcedure
    have hyowned := howned hy hlambda'.isProcedure
    exact ⟨h.equal_iff hxowned hyowned hlambda, h.eq_of_equal hxowned hyowned hlambda⟩
  · exact hexact.equal_iff h.eq_of_equal (h.owned hnew hx) (h.owned hnew hy)
  · exact fun earlier visit later x y hlog hx hy => h.fresh hnew hlog hx hy
  · exact fun x y hcopied => ⟨hcopied.eq, hcopied.equal⟩
  · intro x y hx hy hbuiltin hbuiltin'
    refine ⟨?_, ?_, fun n m hn hm => hnew.equal_iff hn hm hbuiltin hbuiltin'⟩
    · exact h.exists_get? (howned hx hbuiltin.isProcedure) hbuiltin
    · exact h.exists_get? (howned hy hbuiltin'.isProcedure) hbuiltin'

/-- One text twice, in one frame, makes two closures that are unequal, of which only the first is
bound; and two primitives are unequal that began under two names. -/
theorem procedures_identified_twice :
    let f : Value := .closure 0 [] (.integer 1) 0
    let g : Value := .closure 1 [] (.integer 1) 0
    let car : Value := .primitive (.operation (.unary .car)) 0
    let cdr : Value := .primitive (.operation (.unary .cdr)) 0
    ∃ log s, History start log s ∧ made log = [f, g] ∧ s.store.binding? 0 "f" = some f ∧
      f.equal g = false ∧ g.equal f = false ∧ car.equal cdr = false := by
  intro f g car cdr
  let s₁ : Session := ⟨{ start.store with closures := 1 }.define 0 "f" f, 0⟩
  let s₂ : Session := ⟨{ s₁.store with closures := 2 }, 0⟩
  have hparams : Reader.readText "()" = .ok (.list []) := by
    have htext : "()" = "(" ++ " ".intercalate [] ++ ")" := by decide
    rw [htext]
    exact Reader.readText_list .nil
  have hlambda : Reader.readText "(lambda () 1)" =
      .ok (.list [.special .lambda, .list [], .integer 1]) := by
    have htext : "(lambda () 1)" = "(" ++ " ".intercalate ["lambda", "()", "1"] ++ ")" := by
      decide
    rw [htext]
    exact Reader.readText_list (.cons (Reader.readText_word (by decide) rfl)
      (.cons hparams (.cons (Reader.readText_word (by decide) rfl) .nil)))
  have hdefine : Reader.readText "(define f (lambda () 1))" = .ok (.list [.special .define,
      .symbol "f", .list [.special .lambda, .list [], .integer 1]]) := by
    have htext : "(define f (lambda () 1))" =
        "(" ++ " ".intercalate ["define", "f", "(lambda () 1)"] ++ ")" := by decide
    rw [htext]
    exact Reader.readText_list (.cons (Reader.readText_word (by decide) rfl)
      (.cons (Reader.readText_word (by decide) rfl) (.cons hlambda .nil)))
  have hfirst : (start.run 3 "(define f (lambda () 1))").2 = s₁ := by
    rw [run, evalText, Eval.read, hdefine]
    rfl
  have hsecond : (s₁.run 1 "(lambda () 1)").2 = s₂ := by
    rw [run, evalText, Eval.read, hlambda]
    rfl
  have hmade₁ : made (start.visits 3 "(define f (lambda () 1))") = [f] := by
    rw [visits, hdefine]
    rfl
  let visit : Visit :=
    ⟨.list [.special .lambda, .list [], .integer 1], 0, s₁.store, .ok (some g) s₂.store⟩
  have hvisit : s₁.visits 1 "(lambda () 1)" = [visit] := by
    rw [visits, hlambda]
    rfl
  have hhistory : History start (start.visits 3 "(define f (lambda () 1))" ++ [visit]) s₂ := by
    have htwo : History start _ _ :=
      .text (.text .new 3 "(define f (lambda () 1))") 1 "(lambda () 1)"
    rwa [hfirst, hsecond, hvisit] at htwo
  have hinitial (op : Primitive) : start.get? op.name = some (.primitive op 0) :=
    Store.get?_push_self (get?_rootBindings op 0)
  have hbound (op : Primitive) (hop : op.name ≠ "f") :
      s₂.store.binding? 0 op.name = some (.primitive op 0) := by
    have hroot : start.store.binding? 0 op.name = some (.primitive op 0) := get?_rootBindings op 0
    show (Store.define { start.store with closures := 1 } 0 "f" f).binding? 0 op.name = _
    rw [Store.binding?_define_cases, if_neg fun h => hop h.2.1.symm]
    exact hroot
  obtain ⟨-, -, -, hfresh, -, hbuiltins⟩ := procedures_identified .start hhistory
  have hunequal : g.equal f = false ∧ f.equal g = false := by
    refine hfresh _ visit [] g f rfl rfl (.inl ?_)
    rw [hmade₁]
    exact List.mem_singleton_self f
  obtain ⟨-, -, hnames⟩ := hbuiltins car cdr
    ⟨car, .self, .inr ⟨0, "car", hbound (.operation (.unary .car)) (by decide)⟩⟩
    ⟨cdr, .self, .inr ⟨0, "cdr", hbound (.operation (.unary .cdr)) (by decide)⟩⟩
    ⟨_, _, rfl⟩ ⟨_, _, rfl⟩
  have hcarcdr : ¬ car.equal cdr = true := by
    rw [hnames "car" "cdr" (hinitial (.operation (.unary .car)))
      (hinitial (.operation (.unary .cdr)))]
    decide
  refine ⟨_, s₂, hhistory, ?_, ?_, hunequal.2, hunequal.1, by simpa using hcarcdr⟩
  · rw [made_append, hmade₁]
    rfl
  · exact Store.binding?_define_self (Nat.zero_lt_one)

end Session

end ScopedLisp
