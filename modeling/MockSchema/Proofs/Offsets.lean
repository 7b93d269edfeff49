/-
  MockSchema.Proofs.Offsets — where tokens begin and where syntax errors show.

  The scanner counts bytes as it goes, by whole characters, so that it only ever stands between two of them or at an
  end of the text (`Edge`): there its tokens begin (`Splits.edges`), each behind the one before it, and there it
  fails (`tokensFrom_error`). The parser counts nothing. It fails at a token that it was given: a reader leaves the
  end of a scanned list for those that follow, so there is a token wherever one can fail (`Within`). `Level.Points` says
  so of the readers of one level, and one level hands it on to the next (`Points.above`).
-/

import MockSchema.Proofs.Juxtaposition

namespace MockSchema

/-! ## Edges of characters -/

namespace Scan

/-- In a text that begins at `o`, a character begins or ends here. -/
def Edge (o : Nat) (cs : List Char) (k : Nat) : Prop := ∃ taken rest, cs = taken ++ rest ∧ k = o + width taken

section
variable {o k : Nat} {c : Char} {cs rest : List Char}

theorem Edge.start : Edge o cs o := ⟨[], cs, rfl, rfl⟩

theorem Edge.after (taken : List Char) (h : Edge (o + width taken) rest k) : Edge o (taken ++ rest) k := by
  obtain ⟨more, rest', rfl, rfl⟩ := h
  exact ⟨taken ++ more, rest', (List.append_assoc ..).symm, by rw [width_append, Nat.add_assoc]⟩

theorem Edge.tail (h : Edge (o + c.utf8Size) cs k) : Edge o (c :: cs) k := h.after [c]

theorem Edge.le (h : Edge o cs k) : o ≤ k := by
  obtain ⟨taken, rest, -, rfl⟩ := h
  exact Nat.le_add_right ..

/-- In a whole text the edges are the positions that a character does not span. -/
theorem Edge.isValid {s : String} (h : Edge 0 s.toList k) : (⟨k⟩ : String.Pos.Raw).IsValid s := by
  obtain ⟨taken, rest, hs, rfl⟩ := h
  refine String.Pos.Raw.isValid_iff_exists_append.2 ⟨String.ofList taken, String.ofList rest, ?_, ?_⟩
  · rw [← String.ofList_append, ← hs, String.ofList_toList]
  · have hwidth := width_toList (String.ofList taken)
    rw [String.toList_ofList] at hwidth
    rw [Nat.zero_add, hwidth]
    rfl

/-! ## Where the scanner fails -/

theorem number_error {e : SyntaxError} (h : number o cs = .error e) : e.offset = o := by
  unfold number at h
  dsimp only at h
  cases hk : (numeral cs).1.kind o with
  | ok k => rw [hk] at h; cases h
  | error e' =>
    rw [hk] at h
    cases h
    unfold Numeral.kind at hk
    split at hk
    · dsimp only at hk
      split at hk
      · cases hk
      · cases hk; rfl
    · cases hk

theorem unicodeEscape_fails {e : SyntaxError} (h : unicodeEscape o cs = .error e) : e.offset = o := by
  have hne : ∀ c rest, unicodeEscape o cs ≠ .ok (c, rest) := fun c rest hok => by
    rw [h] at hok
    cases hok
  rcases unicodeEscape_error hne with hfail | hfail
  · rw [h] at hfail; cases hfail; rfl
  · rw [h] at hfail; cases hfail; rfl

theorem unicodeEscape_takes (h : unicodeEscape o cs = .ok (c, rest)) : ∃ hex, cs = hex ++ rest ∧ width hex = 4 := by
  unfold unicodeEscape at h
  split at h
  · cases h
  · rename_i hex rest' hbytes
    have hrest : rest' = rest := by
      dsimp only at h
      split at h
      · split at h
        · cases h; rfl
        · cases h
      · cases h
    subst hrest
    exact ⟨hex, takeBytes_append hbytes, takeBytes_width hbytes⟩

/-- A string fails as a whole, at its start, or at what stands behind a `\u`. -/
theorem stringRest_error {quote : Char} {start n : Nat} {done : List Char} {e : SyntaxError}
    (h : stringRest quote start n o done cs = .error e) : e.offset = start ∨ Edge o cs e.offset := by
  induction n generalizing o done cs with
  | zero => cases h; exact Or.inl rfl
  | succ n ih =>
    cases cs with
    | nil => cases h; exact Or.inl rfl
    | cons c cs =>
      unfold stringRest at h
      split at h
      · cases h
      · split at h
        · rename_i hc
          subst hc
          split at h
          · cases h; exact Or.inl rfl
          · rename_i cs
            rcases bind_error h with hescape | ⟨⟨d, rest⟩, hescape, hmore⟩
            · right
              rw [unicodeEscape_fails hescape]
              exact .after ['\\', 'u'] .start
            · obtain ⟨hex, rfl, hwidth⟩ := unicodeEscape_takes hescape
              refine (ih hmore).imp_right fun hedge => ?_
              refine .after ('\\' :: 'u' :: hex) ?_
              have hsum : width ('\\' :: 'u' :: hex) = 6 := by
                simp only [width, hwidth]
                rfl
              rwa [hsum]
          · rename_i d cs _
            refine (ih h).imp_right fun hedge => ?_
            refine .after ['\\', d] ?_
            have hsum : width ['\\', d] = 1 + d.utf8Size := rfl
            rwa [hsum, ← Nat.add_assoc]
        · exact (ih h).imp_right .tail

theorem lexeme_error {e : SyntaxError} (h : lexeme o (c :: cs) = .error e) : Edge o (c :: cs) e.offset := by
  simp only [lexeme] at h
  split at h
  · rw [number_error h]; exact .start
  · split at h
    · rename_i hquote
      have hsize : c.utf8Size = 1 := by
        simp only [Bool.or_eq_true, beq_iff_eq] at hquote
        rcases hquote with rfl | rfl <;> rfl
      rcases bind_error h with hrest | ⟨x, _, h⟩
      · rcases stringRest_error hrest with hstart | hedge
        · rw [hstart]; exact .start
        · rw [← hsize] at hedge
          exact hedge.tail
      · cases h
    · split at h
      · cases h
      · unfold operator at h
        split at h
        · cases h
        · cases h; exact .start

theorem tokensFrom_error {n : Nat} {e : SyntaxError} (h : tokensFrom n o cs = .error e) : Edge o cs e.offset := by
  induction n generalizing o cs with
  | zero => cases h
  | succ n ih =>
    have hcs : cs.takeWhile Text.isBlank ++ cs.dropWhile Text.isBlank = cs := List.takeWhile_append_dropWhile
    simp only [tokensFrom] at h
    split at h
    · cases h
    · rename_i hne
      obtain ⟨c, cs', hdrop⟩ := List.exists_cons_of_ne_nil hne
      rw [← hcs, hdrop]
      rw [hdrop] at h
      refine .after _ ?_
      rcases bind_error h with hlexeme | ⟨l, hl, h⟩
      · exact lexeme_error hlexeme
      · rcases bind_error h with htokens | ⟨ts, _, h⟩
        · obtain ⟨taken, htaken, hwidth, -⟩ := cuts_of_lexeme hl
          rw [htaken]
          rw [hwidth] at htokens
          exact .after taken (ih htokens)
        · cases h

/-! ## Where tokens begin -/

theorem Splits.edges {ts : List Token} (h : Splits o cs ts) : ∀ t ∈ ts, Edge o cs t.offset := by
  induction h with
  | @done o bs _ => exact List.forall_mem_singleton.2 ⟨bs, [], (List.append_nil bs).symm, rfl⟩
  | token _ _ _ _ ih => exact List.forall_mem_cons.2 ⟨.after _ .start, fun t ht => .after _ (.after _ (ih t ht))⟩

/-- Each token is behind the one before it, because that one takes a character. -/
theorem Splits.increasing {ts : List Token} (h : Splits o cs ts) : ts.Pairwise (·.offset < ·.offset) := by
  induction h with
  | done _ => exact List.pairwise_singleton ..
  | @token o bs taken rest c k ts _ _ _ hrest ih =>
    refine List.pairwise_cons.2 ⟨fun t ht => ?_, ih⟩
    have hle := (hrest.edges t ht).le
    have hpos := c.utf8Size_pos
    simp only [width] at hle
    show o + width bs < t.offset
    omega

end

end Scan

/-! ## Where the parser fails -/

theorem Grammar.Spelled.subset {ks : List Token.Kind} {ts rest : List Token} (h : Spelled ks ts rest) : rest ⊆ ts := by
  induction h with
  | nil => exact List.Subset.refl _
  | cons _ ih => exact List.subset_cons_of_subset _ ih

namespace Parse

/-- An error shows at one of these tokens, and otherwise the list that is left ends as this one does. -/
def Within {α : Type} (ts : List Token) : Result (α × List Token) → Prop
  | .ok (_, rest) => Ended rest ∧ rest ⊆ ts
  | .error e => ∃ t ∈ ts, e.offset = t.offset

def Pointing {α : Type} (r : Reader α) : Prop := ∀ ts, Ended ts → Within ts (r ts)

section
variable {α β : Type} {ts rest : List Token} {s : Symbol} {k : Token.Kind} {o : Nat} {r : Result (α × List Token)}

theorem Within.mono (h : Within rest r) (hsub : rest ⊆ ts) : Within ts r := by
  cases r with
  | ok x => exact ⟨h.1, List.Subset.trans h.2 hsub⟩
  | error e =>
    obtain ⟨t, ht, ho⟩ := h
    exact ⟨t, hsub ht, ho⟩

theorem Within.ok (he : Ended ts) (a : α) : Within ts (.ok (a, ts)) := ⟨he, List.Subset.refl ts⟩

theorem Within.fail (he : Ended ts) (cause : SyntaxCause) : Within ts (fail cause ts : Result (α × List Token)) := by
  cases he with
  | eof => exact ⟨_, List.mem_cons_self, rfl⟩
  | cons _ _ => exact ⟨_, List.mem_cons_self, rfl⟩

theorem Within.here (cause : SyntaxCause) : Within (⟨k, o⟩ :: ts) (.error ⟨cause, o⟩ : Result (α × List Token)) :=
  ⟨_, List.mem_cons_self, rfl⟩

/-- Behind a token that is read. -/
theorem Within.behind (he : Ended (⟨k, o⟩ :: ts)) (hk : k ≠ .eof) (h : Ended ts → Within ts r) :
    Within (⟨k, o⟩ :: ts) r := (h ((ended_cons hk).1 he)).mono (List.subset_cons_self ..)

theorem Within.past (he : Ended ts) (heat : eat? s ts = some rest) (h : Ended rest → Within rest r) : Within ts r := by
  obtain ⟨o, rfl⟩ := eat?_some heat
  exact .behind he (by simp) h

theorem Within.bind {f : α × List Token → Result (β × List Token)} (h : Within ts r)
    (hf : ∀ a rest, Ended rest → Within rest (f (a, rest))) : Within ts (r >>= f) := by
  cases r with
  | ok x => exact (hf x.1 x.2 h.1).mono h.2
  | error e => exact h

theorem Within.expect (he : Ended ts) {f : List Token → Result (β × List Token)}
    (hf : ∀ rest, Ended rest → Within rest (f rest)) : Within ts (expect s ts >>= f) := by
  unfold Parse.expect
  split
  · rename_i rest heat
    exact .past he heat (hf rest)
  · exact Within.fail he _

/-- Whether a symbol is read or not. -/
theorem Within.eat {x : Result (α × List Token)} {f : List Token → Result (α × List Token)} (he : Ended ts)
    (hx : Within ts x) (hf : ∀ rest, Ended rest → Within rest (f rest)) :
    Within ts (match eat? s ts with | some rest => f rest | none => x) := by
  split
  · rename_i rest heat
    exact .past he heat (hf rest)
  · exact hx

end

/-! ### Sequences -/

section
variable {item : Reader Expr} (hi : Pointing item) {close : Symbol}
include hi

theorem sequence_pointing (n : Nat) : Pointing (sequence item close n) := by
  induction n with
  | zero => exact fun ts he => .fail he _
  | succ n ih =>
    intro ts he
    unfold sequence
    refine .eat he ?_ fun rest he => .ok he []
    refine (hi ts he).bind fun e rest he => ?_
    refine .eat he ?_ fun rest he => ?_
    · exact .expect he fun rest he => .ok he [e]
    · exact (ih rest he).bind fun es rest he => .ok he (e :: es)

theorem entries_pointing (n : Nat) : Pointing (entries item n) := by
  induction n with
  | zero => exact fun ts he => .fail he _
  | succ n ih =>
    intro ts he
    unfold entries
    refine .eat he ?_ fun rest he => .ok he []
    refine (hi ts he).bind fun k rest he => .expect he fun rest he => ?_
    refine (hi rest he).bind fun v rest he => ?_
    refine .eat he ?_ fun rest he => ?_
    · exact .expect he fun rest he => .ok he [(k, v)]
    · exact (ih rest he).bind fun kvs rest he => .ok he ((k, v) :: kvs)

end

theorem strings_ended (ts : List Token) (he : Ended ts) : Ended (strings ts).2 ∧ (strings ts).2 ⊆ ts := by
  induction ts using strings.induct with
  | case1 s o ts t rest hrest ih =>
    obtain ⟨hended, hsub⟩ := ih ((ended_cons (by simp)).1 he)
    simp only [strings]
    exact ⟨hended, List.subset_cons_of_subset _ hsub⟩
  | case2 ts h =>
    have hs : (strings ts).2 = ts := by
      unfold strings
      split
      · exact absurd rfl (h _ _ _)
      · rfl
    rw [hs]
    exact ⟨he, List.Subset.refl ts⟩

theorem memberHere_pointing (target : Expr) : Pointing (memberHere target) := by
  intro ts he
  unfold memberHere
  split
  · rename_i name o ts
    split
    · exact .here _
    · exact .behind he (by simp) fun he => .ok he _
  · exact .fail he _

/-! ### The readers of a level -/

namespace Level

structure Points (l : Level) : Prop where
  conditional : Pointing l.conditional
  negation : Pointing l.negation
  signed : Pointing l.signed
  orRight (e : Expr) : Pointing (l.orRight e)
  andRight (e : Expr) : Pointing (l.andRight e)
  sumRight (op : BinaryOp) (e : Expr) : Pointing (l.sumRight op e)
  termRight (op : BinaryOp) (e : Expr) : Pointing (l.termRight op e)
  subscript (e : Expr) : Pointing (l.subscript e)
  member (e : Expr) : Pointing (l.member e)

theorem Points.floor : floor.Points where
  conditional _ he := .fail he _
  negation _ he := .fail he _
  signed _ he := .fail he _
  orRight _ _ he := .fail he _
  andRight _ _ he := .fail he _
  sumRight _ _ _ he := .fail he _
  termRight _ _ _ he := .fail he _
  subscript _ _ he := .fail he _
  member _ _ he := .fail he _

section
variable {below : Level} (hb : below.Points)
include hb

theorem Points.atom : Pointing below.atom := by
  intro ts he
  unfold Level.atom
  split
  · exact .behind he (by simp) fun he => .ok he _
  · split
    · exact .behind he (by simp) fun he => .ok he _
    · exact .here _
  · rename_i s o ts
    refine .behind he (by simp) fun he => ?_
    exact strings_ended ts he
  · rename_i name o ts
    split
    · exact .behind he (by simp) fun he => .ok he _
    · rename_i rest heat
      split
      · exact .here _
      · refine .behind he (by simp) fun he => .past he heat fun he => ?_
        exact (sequence_pointing hb.conditional _ rest he).bind fun args rest he => .ok he _
  · exact .behind he (by simp) fun he => .ok he _
  · exact .behind he (by simp) fun he => .ok he _
  · exact .behind he (by simp) fun he => .ok he _
  · refine .behind he (by simp) fun he => ?_
    exact (hb.conditional _ he).bind fun e rest he => .expect he fun rest he => .ok he e
  · refine .behind he (by simp) fun he => ?_
    exact (sequence_pointing hb.conditional _ _ he).bind fun es rest he => .ok he _
  · refine .behind he (by simp) fun he => ?_
    exact (entries_pointing hb.conditional _ _ he).bind fun kvs rest he => .ok he _
  · exact .fail he _

theorem Points.postfixRest (e : Expr) : Pointing (below.postfixRest e) := by
  intro ts he
  unfold Level.postfixRest
  split
  · exact .behind he (by simp) fun he => hb.subscript e _ he
  · exact .behind he (by simp) fun he => hb.member e _ he
  · exact .here _
  · exact .ok he e

theorem Points.postfixed : Pointing below.postfixed :=
  fun ts he => (hb.atom ts he).bind fun e => hb.postfixRest e

theorem Points.power : Pointing below.power := by
  intro ts he
  refine (hb.postfixed ts he).bind fun base rest he => ?_
  refine .eat he (.ok he base) fun rest he => ?_
  exact (hb.signed rest he).bind fun exponent rest he => .ok he _

theorem Points.signedHere : Pointing below.signedHere := by
  intro ts he
  unfold Level.signedHere
  split
  · exact .behind he (by simp) fun he => (hb.signed _ he).bind fun e rest he => .ok he _
  · exact .behind he (by simp) fun he => (hb.signed _ he).bind fun e rest he => .ok he _
  · exact hb.power ts he

theorem Points.termRest (left : Expr) : Pointing (below.termRest left) := by
  intro ts he
  unfold Level.termRest
  split
  · exact .behind he (by simp) fun he => hb.termRight .mul left _ he
  · exact .behind he (by simp) fun he => hb.termRight .div left _ he
  · exact .behind he (by simp) fun he => hb.termRight .floorDiv left _ he
  · exact .behind he (by simp) fun he => hb.termRight .mod left _ he
  · exact .ok he left

theorem Points.term : Pointing below.term := fun ts he => (hb.signedHere ts he).bind fun left => hb.termRest left

theorem Points.sumRest (left : Expr) : Pointing (below.sumRest left) := by
  intro ts he
  unfold Level.sumRest
  split
  · exact .behind he (by simp) fun he => hb.sumRight .add left _ he
  · exact .behind he (by simp) fun he => hb.sumRight .sub left _ he
  · exact .ok he left

theorem Points.sum : Pointing below.sum := fun ts he => (hb.term ts he).bind fun left => hb.sumRest left

theorem Points.links (n : Nat) : Pointing (below.links n) := by
  induction n with
  | zero => exact fun ts he => .ok he []
  | succ n ih =>
    intro ts he
    unfold Level.links
    split
    · exact .ok he []
    · rename_i r rest hr
      have hspelled := relation?_some hr
      refine Within.mono ?_ hspelled.subset
      refine (hb.sum rest (hspelled.ended he)).bind fun e rest he => ?_
      exact (ih rest he).bind fun ls rest he => .ok he _

theorem Points.comparison : Pointing below.comparison := by
  intro ts he
  refine (hb.sum ts he).bind fun first rest he => ?_
  exact (hb.links _ rest he).bind fun ls rest he => .ok he _

theorem Points.negationHere : Pointing below.negationHere := by
  intro ts he
  unfold Level.negationHere
  split
  · exact .behind he (by simp) fun he => (hb.negation _ he).bind fun e rest he => .ok he _
  · exact hb.comparison ts he

theorem Points.andRest (left : Expr) : Pointing (below.andRest left) := by
  intro ts he
  unfold Level.andRest
  split
  · exact .behind he (by simp) fun he => hb.andRight left _ he
  · exact .ok he left

theorem Points.conjunction : Pointing below.conjunction :=
  fun ts he => (hb.negationHere ts he).bind fun left => hb.andRest left

theorem Points.orRest (left : Expr) : Pointing (below.orRest left) := by
  intro ts he
  unfold Level.orRest
  split
  · exact .behind he (by simp) fun he => hb.orRight left _ he
  · exact .ok he left

theorem Points.disjunction : Pointing below.disjunction :=
  fun ts he => (hb.conjunction ts he).bind fun left => hb.orRest left

theorem Points.conditionalHere : Pointing below.conditionalHere := by
  intro ts he
  refine (hb.disjunction ts he).bind fun yes rest he => ?_
  dsimp only
  split
  · exact .ok he yes
  · rename_i rest' heat
    refine .past he heat fun he => ?_
    refine (hb.disjunction rest' he).bind fun c rest he => .expect he fun rest he => ?_
    exact (hb.conditional rest he).bind fun no rest he => .ok he _

theorem Points.bound : Pointing below.bound := by
  intro ts he
  unfold Level.bound
  split
  · exact .ok he none
  · exact .ok he none
  · exact (hb.conditional ts he).bind fun e rest he => .ok he (some e)

theorem Points.sliceRest (target : Expr) (start : Option Expr) : Pointing (below.sliceRest target start) := by
  intro ts he
  refine (hb.bound ts he).bind fun stop rest he => ?_
  have hclose : ∀ (step : Option Expr) rest, Ended rest → Within rest
      (expect .rbracket rest >>= fun rest => .ok (Expr.slice target start stop step, rest)) :=
    fun step rest he => .expect he fun rest he => .ok he _
  dsimp only
  split
  · rename_i rest' heat
    exact .past he heat fun he => (hb.bound rest' he).bind fun step => hclose step
  · exact hclose none rest he

theorem Points.subscriptHere (target : Expr) : Pointing (below.subscriptHere target) := by
  intro ts he
  unfold Level.subscriptHere
  refine .eat he ?_ fun rest he => hb.sliceRest target none rest he
  refine (hb.conditional ts he).bind fun i rest he => ?_
  refine .eat he ?_ fun rest he => hb.sliceRest target (some i) rest he
  exact .expect he fun rest he => .ok he _

theorem Points.above : below.above.Points where
  conditional := hb.conditionalHere
  negation := hb.negationHere
  signed := hb.signedHere
  orRight left ts he := (hb.conjunction ts he).bind fun right => hb.orRest (.or left right)
  andRight left ts he := (hb.negationHere ts he).bind fun right => hb.andRest (.and left right)
  sumRight op left ts he := (hb.term ts he).bind fun right => hb.sumRest (.binary op left right)
  termRight op left ts he := (hb.signedHere ts he).bind fun right => hb.termRest (.binary op left right)
  subscript target ts he := (hb.subscriptHere target ts he).bind fun e => hb.postfixRest e
  member target ts he := (memberHere_pointing target ts he).bind fun e => hb.postfixRest e

end

end Level

theorem level_points (n : Nat) : (level n).Points := by
  induction n with
  | zero => exact .floor
  | succ n ih => exact ih.above

/-- What is wrong with a scanned list shows at one of its tokens. -/
theorem expression_error {ts : List Token} {e : SyntaxError} (he : Ended ts) (h : expression ts = .error e) :
    ∃ t ∈ ts, e.offset = t.offset := by
  have hread := (level_points maxDepth).conditional ts he
  rcases bind_error h with h | ⟨⟨tree, rest⟩, hok, h⟩
  · rw [h] at hread
    exact hread
  · rw [hok] at hread
    obtain ⟨hended, hsub⟩ := hread
    dsimp only at h
    split at h
    · cases h
    · have hrest : Within rest (.error e : Result (Expr × List Token)) := by
        cases h
        exact .fail hended (.unexpected (peek rest))
      obtain ⟨t, ht, ho⟩ := hrest
      exact ⟨t, hsub ht, ho⟩

end Parse

/-! ## Offsets in a text -/

/-- Each token is behind the one before it and at a character, and the one `eof` is at the end of the text. What does
not compile is a `SyntaxError` at a character of the text or at its end. -/
theorem Formula.offsets_usable (source : String) :
    (∀ ts, Scan.tokens source = .ok ts →
      ts.Pairwise (·.offset < ·.offset) ∧
      (∀ t ∈ ts, (⟨t.offset⟩ : String.Pos.Raw).IsValid source) ∧
      ∃ front, ts = front ++ [⟨.eof, source.utf8ByteSize⟩] ∧ ∀ t ∈ front, t.kind ≠ .eof) ∧
    ∀ e, Formula.compile source = .error e →
      e.offset ≤ source.utf8ByteSize ∧ (⟨e.offset⟩ : String.Pos.Raw).IsValid source := by
  constructor
  · intro ts hts
    have hsplits := Scan.tokens_ok_iff.1 hts
    obtain ⟨heof, hfront⟩ := hsplits.ends
    rw [Nat.zero_add, Scan.width_toList] at heof
    exact ⟨hsplits.increasing, fun t ht => (hsplits.edges t ht).isValid, ts.dropLast, heof, hfront⟩
  · intro e he
    have hedge : Scan.Edge 0 source.toList e.offset := by
      rcases bind_error he with hparse | ⟨_, _, h⟩
      · rcases bind_error hparse with hscan | ⟨ts, hts, hread⟩
        · exact Scan.tokensFrom_error hscan
        · obtain ⟨t, ht, ho⟩ := Parse.expression_error (Scan.tokens_ended hts) hread
          rw [ho]
          exact (Scan.tokens_ok_iff.1 hts).edges t ht
      · cases h
    exact ⟨hedge.isValid.le_utf8ByteSize, hedge.isValid⟩

/-- Behind a quote, a character of three bytes and the two of the escape. -/
example : Formula.compile "'\u20ac\\u12" = .error ⟨.truncatedEscape, 6⟩ := rfl

end MockSchema
