/-
  MockSchema.Proofs.Pages — a node that cuts the rows of an entity into pages.

  The node computes four fields, one after another: all rows, where the page starts, how many rows there are, and
  the rows of the page, which it slices out of all. It then leaves out the first field again.

  For a limit below 2^63 the pages are the consecutive parts of the rows: none is lost and none comes twice
  (`pages_complete`). A greater limit counts as a float, so a list cannot be sliced with it, and there are no pages
  of an entity whose name the node cannot spell (`pages_refused`).

  Two tools: `Yields`, for planning that succeeds whatever has been compiled before, and `build_cons`, for one
  field of a row after another.
-/

import MockSchema.Proofs.RowByRow
import MockSchema.Proofs.Slices
import MockSchema.Proofs.Validation

namespace MockSchema

/-! ## Planning that succeeds -/

namespace Planning

/-- Planning comes to this, whatever has been compiled before. -/
def Yields {α : Type} (p : Planner α) (a : α) : Prop :=
  ∀ c : Cache, c.Sound → ∃ c' : Cache, c'.Sound ∧ p c = (.ok a, c')

section
variable {α β : Type} {p : Planner α} {a : α}

theorem Yields.pure (a : α) : Yields (pure a) a := fun c hc => ⟨c, hc, rfl⟩

theorem Yields.bind {f : α → Planner β} {b : β} (h : Yields p a) (h' : Yields (f a) b) : Yields (p >>= f) b := by
  intro c hc
  obtain ⟨c1, hc1, h1⟩ := h c hc
  obtain ⟨c2, hc2, h2⟩ := h' c1 hc1
  refine ⟨c2, hc2, ?_⟩
  rw [run_bind, h1]
  exact h2

theorem Yields.map (g : α → β) (h : Yields p a) : Yields (g <$> p) (g a) := by
  rw [← bind_pure_comp]
  exact h.bind (.pure _)

theorem Yields.inside (key : String) (h : Yields p a) : Yields (inside key p) a := by
  intro c hc
  obtain ⟨c', hc', h⟩ := h c hc
  exact ⟨c', hc', by rw [run_inside, h]⟩

end

section
variable {expand : Value → Row → Planner Plan} {key s : String} {f : Formula} {fields : Row} {rest : List Field}

theorem yields_formula (hf : Formula.compile s = .ok f) (hs : Text.isBlankText s = false) :
    Yields (planRule expand key (.str s)) (.formula f) := by
  have hcompile : Yields (compile key s) f := by
    intro c hc
    obtain ⟨c', hc', h⟩ := hc.compile s
    refine ⟨c', hc', ?_⟩
    rw [run_compile, h, hf]
  have hexpression : expression key (.str s) = compile key s := by
    rw [expression, hs]
    rfl
  rw [planRule, hexpression]
  exact hcompile.map _

theorem yields_field {v : Value} {t : Target} {r : Rule} (hk : isKeyword key = false)
    (ht : Target.ofKey? key = some t) (hv : ∀ vs, v ≠ .list vs) (hr : Yields (planRule expand key v) r)
    (hrest : Yields (planFields expand fields) rest) :
    Yields (planFields expand ((key, v) :: fields)) (.mk key t [r] :: rest) := by
  rw [planFields_cons, hk, planValue_single _ _ hv, targetOf, ht]
  exact (Yields.pure t).bind ((hr.map _).bind (hrest.bind (.pure _)))

theorem yields_keyword {v : Value} (hk : isKeyword key = true) (hrest : Yields (planFields expand fields) rest) :
    Yields (planFields expand ((key, v) :: fields)) rest := by
  rw [planFields_cons, hk]
  exact hrest

end

end Planning

namespace Paging

open Planning Render

/-! ## Nodes and plans -/

/-- All rows of an entity. -/
def allNode (E : String) : Value := .object [(Keyword.entity, .str E)]

/-- One page of them; `page` and `limit` come from the environment. -/
def pageNode (E : String) : Value := .object
  [("all", allNode E), ("start", .str "(page-1)*limit"), ("total", .str "len(it['all'])"),
   ("list", .str "it['all'][it['start']:][:limit]"), (Keyword.except, .list [.str "all"]),
   (Keyword.item, .list [.int 0])]

/-- A field of the row that was computed before. -/
def fieldTree (key : String) : Expr := .index (.name "it") (.literal (.str key))

def startFormula : Formula :=
  ⟨"(page-1)*limit", .binary .mul (.binary .sub (.name "page") (.literal (.int 1))) (.name "limit")⟩

def totalFormula : Formula := ⟨"len(it['all'])", .call .len [fieldTree "all"]⟩

def listFormula : Formula :=
  ⟨"it['all'][it['start']:][:limit]",
    .slice (.slice (fieldTree "all") (some (fieldTree "start")) none none) none (some (.name "limit")) none⟩

def allPlan (E : String) : Plan := .mk ⟨.entity none E, none, none, none, ⟨.all, []⟩, none⟩ []

def pagePlan (E : String) : Plan :=
  .mk ⟨.fresh, none, none, none, ⟨.except ["all"], []⟩, some (.index 0)⟩
    [.mk "all" (.plain "all") [.node (allPlan E)], .mk "start" (.plain "start") [.formula startFormula],
     .mk "total" (.plain "total") [.formula totalFormula], .mk "list" (.plain "list") [.formula listFormula]]

theorem compile_start : Formula.compile "(page-1)*limit" = .ok startFormula := rfl

theorem compile_total : Formula.compile "len(it['all'])" = .ok totalFormula := rfl

theorem compile_list : Formula.compile "it['all'][it['start']:][:limit]" = .ok listFormula := rfl

section
variable {src : Source} {E : String}

theorem yields_all (hE : IsName E) (expand : Value → Row → Planner Plan) :
    Yields (planNode expand [(Keyword.entity, .str E)]) (allPlan E) := by
  have hp : NamePair.ofText? E = some ⟨none, E⟩ := ofText?_single.2 ⟨hE, rfl⟩
  have hbinding : Yields (binding [(Keyword.entity, .str E)]) (.entity none E) := by
    have hunnamed : Dict.get? [(Keyword.entity, Value.str E)] Keyword.name = none := rfl
    have hentity : Dict.get? [(Keyword.entity, Value.str E)] Keyword.entity = some (.str E) := rfl
    simp only [binding, hunnamed, hentity, hp]
    exact .pure _
  rw [planNode_plain _ rfl]
  exact hbinding.bind ((yields_keyword rfl (.pure _)).bind (.pure _))

theorem plan_all (src : Source) (hE : IsName E) : ∃ c, plan src (allNode E) [] = (.ok (allPlan E), c) := by
  have h : Yields (plan src (allNode E)) (allPlan E) := by
    show Yields (planWithin src src.helperNames.length [] _) _
    rw [planWithin_eq]
    exact yields_all hE _
  obtain ⟨c, _, hc⟩ := h [] Cache.sound_empty
  exact ⟨c, hc⟩

theorem plan_page (src : Source) (hE : IsName E) : ∃ c, plan src (pageNode E) [] = (.ok (pagePlan E), c) := by
  have h : Yields (plan src (pageNode E)) (pagePlan E) := by
    show Yields (planWithin src src.helperNames.length [] _) _
    rw [planWithin_eq, planNode_plain _ rfl]
    refine (Yields.pure _).bind (Yields.bind ?_ (.pure _))
    refine yields_field rfl rfl nofun ?_ ?_
    · rw [allNode, planRule_object]
      exact ((yields_all hE _).map _).inside _
    · exact yields_field rfl rfl nofun (yields_formula compile_start rfl)
        (yields_field rfl rfl nofun (yields_formula compile_total rfl)
          (yields_field rfl rfl nofun (yields_formula compile_list rfl)
            (yields_keyword rfl (yields_keyword rfl (.pure _)))))
  obtain ⟨c, _, hc⟩ := h [] Cache.sound_empty
  exact ⟨c, hc⟩

end

/-- The only node in a page is that of all rows, and neither names a helper. -/
theorem page_helperFree (E : String) : ∀ node, pageNode E = .object node → HelperFree node := by
  intro node h
  cases h
  refine .mk rfl fun sub hs => ?_
  have hsub : Value.object sub = allNode E := by
    obtain ⟨kv, hkv, -, hr⟩ := hs
    simp only [List.mem_cons, List.not_mem_nil, or_false] at hkv
    rcases hkv with rfl | rfl | rfl | rfl | rfl | rfl
    · exact (hr.resolve_right nofun).symm
    all_goals simp [Ruled] at hr
  cases hsub
  refine .mk rfl fun sub hs => ?_
  obtain ⟨kv, hkv, hk, -⟩ := hs
  rw [List.mem_singleton.1 hkv] at hk
  cases hk

/-- A page is given of an entity that `__from__` can name. -/
theorem name_of_page {src : Source} {env : Env} {E : String} {v : Value} (h : once src env (pageNode E) = .ok v) :
    IsName E ∨ IsPair E := by
  have hverdict := (plan_decides src (page_helperFree E) [] Cache.sound_empty).2
  rcases hplan : plan src (pageNode E) [] with ⟨r, c⟩
  rw [hplan] at hverdict
  cases r with
  | error e =>
    rw [once, apply, hplan] at h
    cases h
  | ok p =>
    obtain ⟨⟨node, hnode, hw⟩, -⟩ := hverdict
    cases hnode
    obtain ⟨-, -, hruled, -⟩ := hw
    have hall : WellRuled (allNode E) := hruled _ List.mem_cons_self rfl
    cases hall with
    | one hall =>
      cases hall with
      | node hall =>
        obtain ⟨hbound, -, -, -⟩ := hall
        exact textOf_str.1 (hbound.entity _ rfl)

/-! ## Running the plans -/

/-- The rows of an entity as a query returns them: what is null in them, or has no key, is left out. -/
def projected (rows : List Row) : List Value := rows.map fun row => .object (Projection.apply ⟨.all, []⟩ row)

/-- The part of a list that page `p` shows. -/
def pageOf {α : Type} (limit : Nat) (xs : List α) (p : Nat) : List α := (xs.drop ((p - 1) * limit)).take limit

section
variable {src : Source} {env : Env} {E : String} {rows : List Row}

theorem keepRows_same {build : Row → Result Row} {keep : Row → Result Bool} (hb : ∀ row, build row = .ok row)
    (hk : ∀ row, keep row = .ok true) (rows : List Row) : keepRows build keep rows = .ok rows := by
  induction rows with
  | nil => rfl
  | cons row rows ih =>
    rw [keepRows, hb]
    show (keep row >>= fun kept => _) = _
    rw [hk, ok_bind, ih]
    rfl

theorem run_all (hrows : src.entity E = .ok rows) : run src env (allPlan E) = .ok (.list (projected rows)) := by
  have hcand : candidates src env (.entity none E) = .ok rows := by
    rw [candidates, hrows]
  have hkept : keepRows (build src env none []) (keeps env (allPlan E).frame) rows = .ok rows :=
    keepRows_same (fun _ => rfl) (fun _ => rfl) rows
  show (candidates src env (.entity none E) >>= fun rows => _) = _
  rw [hcand, ok_bind]
  show (keepRows (build src env none []) (keeps env (allPlan E).frame) rows >>= fun rows => _) = _
  rw [hkept, ok_bind]
  show Except.ok (Value.list _) = _
  rw [projected, List.map_map]
  rfl

/-- A field with one rule: its value is put into the row, and the other fields go on from there. -/
theorem build_cons {key name : String} {rule : Rule} {fields : List Field} {row : Row} {v : Value}
    (hv : valueOf src env none key row rule = .ok v) :
    build src env none (.mk key (.plain name) [rule] :: fields) row =
      build src env none fields (Dict.put row name v) := by
  rw [build, lastOf, hv]
  rfl

theorem build_ok {key name : String} {rule : Rule} {fields : List Field} {row out : Row}
    (h : build src env none (.mk key (.plain name) [rule] :: fields) row = .ok out) :
    ∃ v, valueOf src env none key row rule = .ok v ∧ build src env none fields (Dict.put row name v) = .ok out := by
  rw [build, lastOf] at h
  cases hv : valueOf src env none key row rule with
  | error e => rw [hv] at h; cases h
  | ok v => rw [hv] at h; exact ⟨v, rfl, h⟩

/-- A page is made of one row, which is built. -/
theorem run_page_built {v : Value} (h : run src env (pagePlan E) = .ok v) :
    ∃ row, build src env none (pagePlan E).fields [] = .ok row := by
  obtain ⟨rows, hrows, h⟩ := bind_ok h
  cases hrows
  obtain ⟨kept, hkept, -⟩ := bind_ok h
  obtain ⟨row, hrow, -⟩ := bind_ok hkept
  exact ⟨row, hrow⟩

/-! ## The fields of a page -/

variable {xs : List Value} {page limit : Int} {more : Row}

theorem withRow_other {row : Row} {name : String} (h : name ≠ Env.it) :
    env.withRow none row name = Dict.get? env name := by
  simp [Env.withRow, h]

theorem eval_field {row : Row} {key : String} {v : Value} (h : Dict.get? row key = some v) :
    (fieldTree key).eval (env.withRow none row) = .ok v := by
  show Index.get (.object row) (.str key) = _
  simp [Index.get, h]

theorem eval_start {row : Row} (hpage : Dict.get? env "page" = some (.int page))
    (hlimit : Dict.get? env "limit" = some (.int limit)) (hp : InRange page) (hp' : InRange (page - 1))
    (hl : InRange limit) (hs : InRange ((page - 1) * limit)) :
    startFormula.eval (env.withRow none row) = .ok (.int ((page - 1) * limit)) := by
  have hname : env.withRow none row "page" = some (.int page) := (withRow_other (by decide)).trans hpage
  have hname' : env.withRow none row "limit" = some (.int limit) := (withRow_other (by decide)).trans hlimit
  have hone : InRange 1 := by decide
  simp only [startFormula, Formula.eval, Expr.eval, hname, hname', ok_bind, Arith.binary, Value.num?, hp, hone, hl,
    if_true, Arith.nums, Arith.ints, Arith.ofInt, hp', hs]

theorem eval_total {row : Row} (h : Dict.get? row "all" = some (.list xs)) :
    totalFormula.eval (env.withRow none row) = .ok (.int xs.length) := by
  simp only [totalFormula, Formula.eval, Expr.eval, Expr.evalAll, eval_field h, ok_bind]
  rfl

theorem slice_from {start : Nat} (hx : (xs.length : Int) ≤ largest) (hs : InRange start) :
    Index.slice (.list xs) (.int start) .null .null = .ok (.list (xs.drop start)) := by
  have habsent : Index.bound .null = .ok none := rfl
  simp only [Index.slice, Index.bound_int hs, habsent, ok_bind, Index.pick_from hx]
  rfl

theorem slice_upTo {stop : Nat} (hx : (xs.length : Int) ≤ largest) (hs : InRange stop) :
    Index.slice (.list xs) .null (.int stop) .null = .ok (.list (xs.take stop)) := by
  have habsent : Index.bound .null = .ok none := rfl
  simp only [Index.slice, Index.bound_int hs, habsent, ok_bind, Index.pick_upTo hx]
  rfl

theorem eval_list {row : Row} {start limit : Nat} (hall : Dict.get? row "all" = some (.list xs))
    (hstart : Dict.get? row "start" = some (.int start)) (hlimit : Dict.get? env "limit" = some (.int limit))
    (hx : (xs.length : Int) ≤ largest) (hs : InRange start) (hl : InRange limit) :
    listFormula.eval (env.withRow none row) = .ok (.list ((xs.drop start).take limit)) := by
  have hname : env.withRow none row "limit" = some (.int limit) := (withRow_other (by decide)).trans hlimit
  have hdrop : ((xs.drop start).length : Int) ≤ largest := by
    rw [List.length_drop]
    omega
  simp only [listFormula, Formula.eval, Expr.eval, Expr.evalBound, eval_field hall, eval_field hstart, hname, ok_bind,
    slice_from hx hs, slice_upTo hdrop hl]

theorem start_cast {page : Nat} (limit : Nat) (hp : 1 ≤ page) :
    ((page : Int) - 1) * limit = ((page - 1) * limit : Nat) := by
  rw [Int.natCast_mul, Int.natCast_sub hp]
  rfl

/-- What the node makes of the page: its fields, one after another. -/
theorem run_page {page limit : Nat} (hrows : src.entity E = .ok rows) (hpage : Dict.get? env "page" = some (.int page))
    (hlimit : Dict.get? env "limit" = some (.int limit)) (hx : (rows.length : Int) ≤ largest) (hp : 1 ≤ page)
    (hp' : InRange page) (hl : InRange limit) (hs : InRange ((page - 1) * limit : Nat)) :
    run src env (pagePlan E) = .ok (.object
      [("start", .int ((page - 1) * limit : Nat)), ("total", .int rows.length),
       ("list", .list (pageOf limit (projected rows) page))]) := by
  have hlength : (projected rows).length = rows.length := List.length_map _
  have hint := start_cast limit hp
  have hbefore : InRange ((page : Int) - 1) := by
    unfold InRange smallest largest at hp' ⊢
    omega
  have hall : valueOf src env none "all" [] (.node (allPlan E)) = .ok (.list (projected rows)) := by
    rw [valueOf, run_all hrows]
    rfl
  have hstart : valueOf src env none "start" [("all", .list (projected rows))] (.formula startFormula) =
      .ok (.int ((page - 1) * limit : Nat)) := by
    rw [valueOf, eval_start hpage hlimit hp' hbefore hl (hint ▸ hs), hint]
    rfl
  have htotal : valueOf src env none "total"
      [("all", .list (projected rows)), ("start", .int ((page - 1) * limit : Nat))] (.formula totalFormula) =
      .ok (.int rows.length) := by
    rw [valueOf, eval_total rfl, hlength]
    rfl
  have hlist : valueOf src env none "list"
      [("all", .list (projected rows)), ("start", .int ((page - 1) * limit : Nat)), ("total", .int rows.length)]
      (.formula listFormula) = .ok (.list (pageOf limit (projected rows) page)) := by
    rw [valueOf, eval_list rfl rfl hlimit (hlength ▸ hx) hs hl]
    rfl
  have hbuild : build src env none (pagePlan E).fields [] = .ok
      [("all", .list (projected rows)), ("start", .int ((page - 1) * limit : Nat)), ("total", .int rows.length),
       ("list", .list (pageOf limit (projected rows) page))] :=
    (build_cons hall).trans ((build_cons hstart).trans ((build_cons htotal).trans (build_cons hlist)))
  show (keepRows (build src env none (pagePlan E).fields) (keeps env (pagePlan E).frame) [[]] >>= fun rows => _) = _
  rw [keepRows_one hbuild rfl]
  rfl

end

/-! ## All pages -/

/-- How many pages there are: as many as are full, and one for what is left. -/
def pageCount (n limit : Nat) : Nat := (n + limit - 1) / limit

section
variable {n limit p : Nat}

theorem le_pageCount (hl : 1 ≤ limit) : p ≤ pageCount n limit ↔ p * limit ≤ n + limit - 1 :=
  Nat.le_div_iff_mul_le hl

/-- Each page has something to begin with. -/
theorem page_begins (hl : 1 ≤ limit) (hp : 1 ≤ p) (hcount : p ≤ pageCount n limit) : (p - 1) * limit < n := by
  have h := (le_pageCount hl).1 hcount
  have hfirst : limit ≤ p * limit := Nat.le_mul_of_pos_left limit hp
  rw [Nat.sub_mul, Nat.one_mul]
  omega

/-- A page with another after it is full. -/
theorem page_full (hl : 1 ≤ limit) (hp : 1 ≤ p) (hcount : p < pageCount n limit) : (p - 1) * limit + limit ≤ n := by
  have h := (le_pageCount hl).1 hcount
  have hstep : (p - 1) * limit + limit = p * limit := by
    rw [← Nat.succ_mul]
    congr 1
    omega
  rw [Nat.succ_mul] at h
  omega

theorem pageCount_covers (hl : 1 ≤ limit) : n ≤ pageCount n limit * limit := by
  have h : ¬ (pageCount n limit + 1) * limit ≤ n + limit - 1 := fun h =>
    Nat.lt_irrefl _ ((le_pageCount hl).2 h)
  rw [Nat.succ_mul] at h
  omega

theorem length_pageOf {α : Type} (xs : List α) :
    (pageOf limit xs p).length = min limit (xs.length - (p - 1) * limit) := by
  rw [pageOf, List.length_take, List.length_drop]

/-- The first pages, one after another, are the beginning of the list. -/
theorem pages_join {α : Type} (xs : List α) (count : Nat) :
    (List.range' 1 count).flatMap (pageOf limit xs) = xs.take (count * limit) := by
  induction count with
  | zero => simp
  | succ count ih =>
    have hlast : pageOf limit xs (1 + count) = (xs.drop (count * limit)).take limit := by
      rw [pageOf, Nat.add_sub_cancel_left]
    rw [List.range'_1_concat, List.flatMap_append, ih, List.flatMap_singleton, hlast, Nat.succ_mul, List.take_add]

end

/-- The pages of an entity, for a limit that arithmetic knows as an integer: page by page the node gives its start,
the number of rows, and a list that is full but for the last page; the lists of all pages, one after
another, are the rows as a query of the entity returns them. -/
theorem pages_complete (src : Source) (E : String) (rows : List Row) (limit : Nat) (hE : IsName E)
    (hrows : src.entity E = .ok rows) (hn : (rows.length : Int) ≤ largest) (hl : 1 ≤ limit)
    (hl' : (limit : Int) ≤ largest) :
    (∀ env, once src env (allNode E) = .ok (.list (projected rows))) ∧
    ∃ pages : Nat → List Value,
      (∀ env p, Dict.get? env "page" = some (.int (p : Nat)) → Dict.get? env "limit" = some (.int limit) →
        1 ≤ p → p ≤ pageCount rows.length limit →
        once src env (pageNode E) = .ok (.object
          [("start", .int (((p : Int) - 1) * limit)), ("total", .int rows.length), ("list", .list (pages p))])) ∧
      (∀ p, (pages p).length ≤ limit ∧
        (1 ≤ p → p < pageCount rows.length limit → (pages p).length = limit)) ∧
      (List.range' 1 (pageCount rows.length limit)).flatMap pages = projected rows := by
  have hlength : (projected rows).length = rows.length := List.length_map _
  refine ⟨fun env => ?_, pageOf limit (projected rows), ?_, ?_, ?_⟩
  · obtain ⟨c, hplan⟩ := plan_all src hE
    rw [once, apply, hplan]
    exact run_all hrows
  · intro env p hpage hlimit hp hcount
    have hbegins := page_begins hl hp hcount
    have hnumber : p - 1 ≤ (p - 1) * limit := Nat.le_mul_of_pos_right (p - 1) hl
    have hin : ∀ k : Nat, (k : Int) ≤ largest → InRange k := by
      intro k hk
      unfold InRange smallest
      omega
    have hrun := run_page hrows hpage hlimit hn hp (hin p (by omega)) (hin limit hl') (hin _ (by omega))
    obtain ⟨c, hplan⟩ := plan_page src hE
    rw [once, apply, hplan, start_cast limit hp]
    exact hrun
  · intro p
    rw [length_pageOf, hlength]
    refine ⟨Nat.min_le_left _ _, fun hp hcount => ?_⟩
    have hfull := page_full hl hp hcount
    omega
  · rw [pages_join, List.take_of_length_le]
    rw [hlength]
    exact pageCount_covers hl

/-- Three rows in pages of two. -/
theorem pages_complete_three :
    let rows : List Row := [[("a", .int 1)], [("a", .int 2)], [("a", .int 3)]]
    let src := (Memory.empty.insertEntity "E" (.list (rows.map .object))).source
    IsName "E" ∧ src.entity "E" = .ok rows ∧ ∃ first second : List Value,
      once src [("page", .int 1), ("limit", .int 2)] (pageNode "E") =
        .ok (.object [("start", .int 0), ("total", .int 3), ("list", .list first)]) ∧
      once src [("page", .int 2), ("limit", .int 2)] (pageNode "E") =
        .ok (.object [("start", .int 2), ("total", .int 3), ("list", .list second)]) ∧
      first.length = 2 ∧ first ++ second = projected rows := by
  intro rows src
  have hE : IsName "E" := isName_iff.1 (by decide)
  have hrows : src.entity "E" = .ok rows := rfl
  obtain ⟨-, pages, hpage, hfull, hjoin⟩ :=
    pages_complete src "E" rows 2 hE hrows (by decide) (by decide) (by decide)
  refine ⟨hE, hrows, pages 1, pages 2, ?_, ?_, ?_, ?_⟩
  · exact hpage _ 1 rfl rfl (by decide) (by decide)
  · exact hpage _ 2 rfl rfl (by decide) (by decide)
  · exact (hfull 1).2 (by decide) (by decide)
  · have htwo : List.range' 1 (pageCount rows.length 2) = [1, 2] := by decide
    rw [← hjoin, htwo]
    simp

/-- Two pages that are not given. A limit from 2^63 on counts as a float, and so does the start of the page: no list
is sliced by it. An entity may be stored under a name that `__from__` cannot spell. -/
theorem pages_refused :
    let src := ((Memory.empty.insertEntity "E" (.list [.object [("a", .int 1)]])).insertEntity "a b"
      (.list [.object [("a", .int 1)]])).source
    src.entity "E" = .ok [[("a", .int 1)]] ∧ src.entity "a b" = .ok [[("a", .int 1)]] ∧
      (∀ v, once src [("page", .int 1), ("limit", .int 0x8000000000000000)] (pageNode "E") ≠ .ok v) ∧
      ∀ v, once src [("page", .int 1), ("limit", .int 1)] (pageNode "a b") ≠ .ok v := by
  intro src
  refine ⟨rfl, rfl, fun v h => ?_, fun v h => ?_⟩
  · obtain ⟨c, hplan⟩ := plan_page src (isName_iff.1 (by decide) : IsName "E")
    rw [once, apply, hplan] at h
    obtain ⟨row, hbuild⟩ := run_page_built h
    obtain ⟨all, -, hbuild⟩ := build_ok hbuild
    obtain ⟨start, hstart, hbuild⟩ := build_ok hbuild
    obtain ⟨total, -, hbuild⟩ := build_ok hbuild
    obtain ⟨list, hlist, -⟩ := build_ok hbuild
    obtain ⟨x, rfl⟩ : ∃ x, start = .float x := by
      have hproduct : evaluated "start" (Arith.ofFloat (Float.ofInt 0 * Float.ofInt 0x8000000000000000)) = .ok start :=
        hstart
      unfold Arith.ofFloat at hproduct
      split at hproduct
      · cases hproduct
        exact ⟨_, rfl⟩
      · cases hproduct
    cases hlist
  · have hnamed := ofText?_isSome.2 (name_of_page h)
    have hnone : (NamePair.ofText? "a b").isSome = false := by decide
    rw [hnone] at hnamed
    cases hnamed

end Paging

end MockSchema
