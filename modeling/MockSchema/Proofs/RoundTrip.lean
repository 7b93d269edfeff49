/-
  MockSchema.Proofs.RoundTrip — what `str` writes, the expression language reads back.

  A written value is scanned to its tokens, these are read as its tree, and the tree has the value it
  was written for, in every scope. A negative number is read as a sign and its operand, so it takes a level,
  as each list and each dictionary does. Dictionaries are built by putting one entry after the other,
  so their entries come back as they were just if no key stands twice.

  The keys have to be verbatim, because they are written without escapes: a quote in a key ends it, and a
  backslash may make an escape of what follows.
-/

import MockSchema.Expr.Eval
import MockSchema.Proofs.Proper
import MockSchema.Proofs.WrittenTokens

namespace MockSchema

open Grammar Parse

/-! ## Levels -/

mutual

/-- How many lists and dictionaries stand one in the other. -/
def Value.nesting : Value → Nat
  | .list xs => nestingAll xs + 1
  | .object fields => nestingFields fields + 1
  | _ => 0

def Value.nestingAll : List Value → Nat
  | [] => 0
  | v :: vs => max (nesting v) (nestingAll vs)

def Value.nestingFields : List (String × Value) → Nat
  | [] => 0
  | (_, v) :: fields => max (nesting v) (nestingFields fields)

end

theorem Value.le_of_mem_max {α : Type} {f : α → Nat} {fs : List α → Nat}
    (hcons : ∀ x xs, fs (x :: xs) = max (f x) (fs xs)) {xs : List α} {x : α} (h : x ∈ xs) : f x ≤ fs xs := by
  induction xs with
  | nil => cases h
  | cons y ys ih =>
    rw [hcons]
    rcases List.mem_cons.1 h with rfl | h
    · exact Nat.le_max_left ..
    · exact Nat.le_trans (ih h) (Nat.le_max_right ..)

theorem Value.nesting_le_all {xs : List Value} : ∀ x ∈ xs, x.nesting ≤ nestingAll xs :=
  fun _ => le_of_mem_max fun _ _ => rfl

theorem Value.nesting_le_fields {fields : Dict Value} : ∀ kv ∈ fields, kv.2.nesting ≤ nestingFields fields :=
  fun _ => le_of_mem_max (f := fun kv : String × Value => kv.2.nesting) fun _ _ => rfl

/-! ## Trees -/

namespace Display

mutual

/-- What a written value is read as. -/
def tree : Value → Expr
  | .int (.negSucc n) => .unary .neg (.literal (.int (n + 1)))
  | .list xs => .list (treeAll xs)
  | .object fields => .dict (treeFields fields)
  | v => .literal v

def treeAll : List Value → List Expr
  | [] => []
  | v :: vs => tree v :: treeAll vs

def treeFields : List (String × Value) → List (Expr × Expr)
  | [] => []
  | (k, v) :: fields => (.literal (.str k), tree v) :: treeFields fields

end

theorem treeAll_eq_map : ∀ xs : List Value, treeAll xs = xs.map tree :=
  eq_map rfl fun _ _ => rfl

theorem treeFields_eq_map : ∀ fields : List (String × Value),
    treeFields fields = fields.map fun kv => (.literal (.str kv.1), tree kv.2) :=
  eq_map rfl fun _ _ => rfl

end Display

namespace Parse

open Display

/-! ## Reading -/

section
variable {below : Level} {n : Nat}

/-- One token that is a literal. -/
theorem reads_literal {k : Token.Kind} {v : Value}
    (h : ∀ o rest, grip (peek rest) < 9 → below.atom (⟨k, o⟩ :: rest) = .ok (.literal v, rest)) :
    Reads below.atom [k] (.literal v) 9 where
  reads hs hg := by
    obtain ⟨o, rfl⟩ := hs.single
    exact h o _ hg

theorem reads_str (s : String) : Reads below.atom [.str s] (.literal (.str s)) 9 := by
  refine reads_literal fun o rest hg => ?_
  simp only [Level.atom, strings_stop hg, String.append_empty]

theorem Reads.whole {ks : List Token.Kind} {t : Expr} (h : Reads (level n).atom ks t 9) :
    Reads (level (n + 1)).conditional ks t 1 :=
  h.postfixed.power.signedHere.above

/-- Each list and each dictionary takes a level. One more is for a number's sign, and one for the expression. -/
theorem tree_reads {v : Value} (hw : v.Writable) :
    ∀ n, v.nesting ≤ n → Reads (level (n + 2)).conditional (kinds v) (tree v) 1 := by
  induction hw with
  | null => exact fun n _ => (reads_literal fun _ _ _ => rfl).whole
  | bool b => cases b <;> exact fun n _ => (reads_literal fun _ _ _ => rfl).whole
  | @int m _ _ =>
    intro n _
    cases m with
    | ofNat m => exact (reads_literal fun _ _ _ => rfl).whole
    | negSucc m => exact Reads.above (Reads.negated (reads_literal fun _ _ _ => rfl).postfixed.power.signedHere)
  | str s => exact fun n _ => (reads_str s).whole
  | @list xs _ ih =>
    intro n hn
    rw [Value.nesting] at hn
    obtain ⟨n, rfl⟩ : ∃ m, n = m + 1 := ⟨n - 1, by omega⟩
    have hitems : ∀ y ∈ xs.map fun x => (kinds x, tree x), Reads (level (n + 2)).conditional y.1 y.2 1 := by
      refine List.forall_mem_map.2 fun x hx => ih x hx n ?_
      have := Value.nesting_le_all x hx
      omega
    have hlist := (Reads.list hitems).whole
    rw [List.map_map, List.map_map] at hlist
    rw [kinds, tree, kindsAll_eq_map, treeAll_eq_map]
    exact hlist
  | @object fields _ _ ih =>
    intro n hn
    rw [Value.nesting] at hn
    obtain ⟨n, rfl⟩ : ∃ m, n = m + 1 := ⟨n - 1, by omega⟩
    have hentries : ∀ y ∈ fields.map fun kv => Entry.mk [.str kv.1] (.literal (.str kv.1)) (kinds kv.2) (tree kv.2),
        Reads (level (n + 2)).conditional y.keyKinds y.key 1 ∧
          Reads (level (n + 2)).conditional y.valueKinds y.value 1 := by
      refine List.forall_mem_map.2 fun kv hkv => ⟨(reads_str kv.1).whole, ih kv hkv n ?_⟩
      have := Value.nesting_le_fields kv hkv
      omega
    have hdict := (Reads.dict hentries).whole
    rw [List.map_map, List.map_map] at hdict
    rw [kinds, tree, kindsFields_eq_map, treeFields_eq_map]
    exact hdict

end

end Parse

/-! ## Values -/

namespace Expr

variable {scope : Scope} {f : Value → Expr}

theorem evalAll_map {xs : List Value} (h : ∀ x ∈ xs, (f x).eval scope = .ok x) :
    evalAll scope (xs.map f) = .ok xs := by
  induction xs with
  | nil => rfl
  | cons x xs ih =>
    rw [List.map_cons, evalAll, h x List.mem_cons_self, ih fun y hy => h y (List.mem_cons_of_mem _ hy)]
    rfl

theorem evalPairs_map {fields : Dict Value} (h : ∀ kv ∈ fields, (f kv.2).eval scope = .ok kv.2) :
    evalPairs scope (fields.map fun kv => (.literal (.str kv.1), f kv.2)) =
      .ok (fields.map fun kv => (.str kv.1, kv.2)) := by
  induction fields with
  | nil => rfl
  | cons kv fields ih =>
    rw [List.map_cons, evalPairs, h kv List.mem_cons_self, ih fun y hy => h y (List.mem_cons_of_mem _ hy)]
    rfl

/-- Entries whose keys are strings are put in order. -/
theorem ofPairs_str (fields : Dict Value) :
    Value.ofPairs (fields.map fun kv => (.str kv.1, kv.2)) = .ok (.object (Dict.ofList fields)) := by
  unfold Value.ofPairs
  rw [List.foldlM_map]
  have hput : fields.foldlM (fun d kv => (pure (Dict.put d kv.1 kv.2) : Except EvalError (Dict Value))) [] =
      pure (Dict.ofList fields) := List.foldlM_pure
  show (fields.foldlM (fun d kv => (pure (Dict.put d kv.1 kv.2) : Except EvalError (Dict Value))) [] >>= _) = _
  rw [hput]
  rfl

theorem unary_neg {n : Int} (h : InRange n) (h' : InRange (-n)) : Arith.unary .neg (.int n) = .ok (.int (-n)) := by
  rw [Arith.unary, Value.num?_of_int? (Value.int?_int h)]
  exact if_pos h'

theorem neg_negSucc {n : Nat} (h : smallest < Int.negSucc n) :
    Arith.unary .neg (.int (n + 1)) = .ok (.int (.negSucc n)) := by
  rw [Int.negSucc_eq] at h ⊢
  have hrange : InRange ((n : Int) + 1) ∧ InRange (-((n : Int) + 1)) := by
    simp only [InRange, smallest, largest] at h ⊢
    omega
  exact unary_neg hrange.1 hrange.2

theorem tree_eval {v : Value} (hw : v.Writable) (hp : v.Proper) : (Display.tree v).eval scope = .ok v := by
  induction hw with
  | null => rfl
  | bool b => rfl
  | @int n h _ =>
    cases n with
    | ofNat n => rfl
    | negSucc n =>
      rw [Display.tree, eval, eval, ok_bind]
      exact neg_negSucc h
  | str s => rfl
  | @list xs _ ih =>
    cases hp with
    | list hp =>
      have hitems := evalAll_map fun x hx => ih x hx (hp x hx)
      rw [Display.tree, Display.treeAll_eq_map, eval, hitems]
      rfl
  | @object fields _ _ ih =>
    cases hp with
    | object hk hp =>
      have hentries := evalPairs_map fun kv hkv => ih kv hkv (hp kv hkv)
      have hfields : Dict.ofList fields = fields := Dict.overlay_of_nodup hk
      rw [Display.tree, Display.treeFields_eq_map, eval, hentries]
      show Value.ofPairs _ = _
      rw [ofPairs_str, hfields]

end Expr

namespace Display

/-- What `str` writes for the list of this one value compiles, and its value is that list. -/
def ReadsBack (scope : Scope) (v : Value) : Prop :=
  ∃ s f, Builtin.str.call [.list [v]] = .ok (.str s) ∧ Formula.compile s = .ok f ∧ f.eval scope = .ok (.list [v])

/-- Values with verbatim keys are read back. A key that is not verbatim is not read back from between its
quotes, whatever follows. -/
theorem reads_back (scope : Scope) (v : Value) (key tail : List Char) (o : Nat) :
    (v.Writable → v.Proper → v.nesting ≤ 100 → ReadsBack scope v) ∧
    (Scan.Verbatim key ↔
      ∃ w, Scan.lexeme o ('\x27' :: key ++ '\x27' :: tail) = .ok ⟨.str (String.ofList key), w, tail⟩) := by
  refine ⟨fun hw hp hn => ?_, (Scan.lexeme_verbatim_iff o tail).symm⟩
  have hlist : (Value.list [v]).Writable := .list (List.forall_mem_singleton.2 hw)
  have hproper : (Value.list [v]).Proper := .list (List.forall_mem_singleton.2 hp)
  have hlevels : (Value.list [v]).nesting ≤ 126 := by simp only [Value.nesting, Value.nestingAll]; omega
  obtain ⟨ts, o, hts, hs⟩ := (Scan.written_scans hlist).tokens .done
  have hparse : Expr.parse (written (.list [v])) = .ok (tree (.list [v])) := by
    have hread := (tree_reads hlist 126 hlevels).reads hs (by simp [peek, grip])
    simp only [Expr.parse, hts, ok_bind, expression, maxDepth, hread]
    rfl
  refine ⟨written (.list [v]), ⟨written (.list [v]), tree (.list [v])⟩, rfl, ?_, Expr.tree_eval hlist hproper⟩
  simp only [Formula.compile, hparse, ok_bind]
  rfl

theorem reads_back_nested : ReadsBack (fun _ => none) (.object [("a", .list [.int (-5), .str "it's"])]) := by
  have hlist : (Value.list [.int (-5), .str "it's"]).Writable :=
    .list (List.forall_mem_cons.2 ⟨.int (by decide) (by decide), List.forall_mem_singleton.2 (.str _)⟩)
  have hproper : (Value.list [.int (-5), .str "it's"]).Proper :=
    .list (List.forall_mem_cons.2 ⟨.int _, List.forall_mem_singleton.2 (.str _)⟩)
  have hkey : Scan.Verbatim "a".toList := .char (by decide) (by decide) .nil
  exact (reads_back _ _ [] [] 0).1 (.object (List.forall_mem_singleton.2 hkey) (List.forall_mem_singleton.2 hlist))
    (.object (by decide) (List.forall_mem_singleton.2 hproper)) (by decide)

/-- A quote ends its key too early; a backslash and an `n` are read as the end of a line. -/
theorem keys_not_read_back :
    ¬ ReadsBack (fun _ => none) (.object [("it's", .int 1)]) ∧ ¬ ReadsBack (fun _ => none) (.object [("\\n", .int 1)]) := by
  constructor
  · rintro ⟨s, f, hs, hf, -⟩
    cases hs
    have herror : (Formula.compile (text (.list [.object [("it's", .int 1)]]))).toOption = none := by rfl
    rw [hf] at herror
    cases herror
  · rintro ⟨s, f, hs, hf, hv⟩
    cases hs
    have hcompiled : Formula.compile (text (.list [.object [("\\n", .int 1)]])) =
        .ok ⟨text (.list [.object [("\\n", .int 1)]]), .list [.dict [(.literal (.str "\n"), .literal (.int 1))]]⟩ := by
      rfl
    rw [hcompiled] at hf
    cases hf
    have hvalue : (.ok (.list [.object [("\n", .int 1)]]) : Except EvalError Value) =
        .ok (.list [.object [("\\n", .int 1)]]) := hv
    simp at hvalue

end Display

end MockSchema
