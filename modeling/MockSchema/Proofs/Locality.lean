/-
  MockSchema.Proofs.Locality — what a reader takes and returns is decided by the tokens that it takes.

  A reader that returned something took tokens of some kinds. Wherever tokens of these kinds stand, at whatever
  offsets, and whatever follows them that does not go on with the phrase, it takes them again and returns the same
  (`Local`), with the same number of levels left. `Level.AllLocal` says so of the readers of one level, and one level
  hands it on to the next (`AllLocal.above`). So a level that was enough for an expression on its own is enough for
  it between any others, and where the tokens stand makes no difference to the tree (`expression_kinds`).
-/

import MockSchema.Proofs.Reads

namespace MockSchema

open Grammar

theorem Grammar.Spelled.kinds {ks : List Token.Kind} {ts rest : List Token} (h : Spelled ks ts rest) :
    ts.map (·.kind) = ks ++ rest.map (·.kind) := by
  induction h with
  | nil => rfl
  | cons _ ih => rw [List.map_cons, ih, List.cons_append]

theorem Grammar.Spelled.length {ks : List Token.Kind} {ts rest : List Token} (h : Spelled ks ts rest) :
    ts.length = ks.length + rest.length := by
  simpa using congrArg List.length h.kinds

theorem Grammar.spelled_of_kinds {ks ks' : List Token.Kind} {ts : List Token} (h : ts.map (·.kind) = ks ++ ks') :
    ∃ rest, Spelled ks ts rest ∧ rest.map (·.kind) = ks' := by
  induction ks generalizing ts with
  | nil => exact ⟨ts, .nil, h⟩
  | cons k ks ih =>
    cases ts with
    | nil => cases h
    | cons t ts =>
      obtain ⟨rest, hs, hrest⟩ := ih (List.cons.inj h).2
      obtain ⟨k', o⟩ := t
      obtain rfl : k' = k := (List.cons.inj h).1
      exact ⟨rest, .cons hs, hrest⟩

theorem Grammar.Spelled.unique {ks ks' : List Token.Kind} {ts rest : List Token} (h : Spelled ks ts rest)
    (h' : Spelled ks' ts rest) : ks = ks' :=
  List.append_cancel_right (h.kinds.symm.trans h'.kinds)

/-- What begins with one of these tokens, or with what follows them, does so wherever they stand. -/
theorem Grammar.Spelled.peek {P : Token.Kind → Prop} {ks : List Token.Kind} {ts rest ts' rest' : List Token}
    (h : Spelled ks ts rest) (h' : Spelled ks ts' rest') (hts : ts = rest ∨ P (Parse.peek ts))
    (hrest : P (Parse.peek rest')) : P (Parse.peek ts') := by
  cases h' with
  | nil => exact hrest
  | cons _ =>
    rcases hts with rfl | hts
    · have := h.length
      simp only [List.length_cons] at this
      omega
    · cases h
      exact hts

namespace Parse

/-! ## Readers -/

/-- What goes on with no phrase, or only with one looser than `g`. -/
def Below (g : Nat) (k : Token.Kind) : Prop := grip k < g

section
variable {α β : Type}

/-- Tokens of the kinds taken here are taken everywhere before one that is `Next`, and the same is returned. -/
def Locally (r : Reader α) (Next : Token.Kind → Prop) (ts : List Token) (t : α) (rest : List Token) : Prop :=
  ∃ ks, Spelled ks ts rest ∧ ∀ ts' rest', Spelled ks ts' rest' → Next (peek rest') → r ts' = .ok (t, rest')

def Local (r : Reader α) (Next : Token.Kind → Prop) : Prop :=
  ∀ ts t rest, r ts = .ok (t, rest) → Locally r Next ts t rest

/-- What goes on with a left operand `e`: nothing, or a token that grips as much as `g` and then another reader. -/
structure Loops (r : Reader Expr) (e : Expr) (g : Nat) : Prop where
  stop {ts : List Token} : Below g (peek ts) → r ts = .ok (e, ts)
  cases {ts rest : List Token} {t : Expr} : r ts = .ok (t, rest) → t = e ∧ rest = ts ∨
    ∃ k o ts' r', ts = ⟨k, o⟩ :: ts' ∧ grip k = g ∧ Local r' (Below g) ∧ r' ts' = .ok (t, rest) ∧
      ∀ o ts, r (⟨k, o⟩ :: ts) = r' ts

variable {r : Reader α} {Next : Token.Kind → Prop} {ts rest : List Token} {t : α}

theorem Locally.stop (h : ∀ ts, Next (peek ts) → r ts = .ok (t, ts)) : Locally r Next ts t ts := by
  refine ⟨[], .nil, fun ts' rest' hs hnext => ?_⟩
  cases hs
  exact h _ hnext

/-- A token, and then what another reader takes. -/
theorem Locally.token {r' : Reader β} {u : β} {k : Token.Kind} {o : Nat} (h : Locally r' Next ts u rest)
    (hr : ∀ o ts rest, r' ts = .ok (u, rest) → r (⟨k, o⟩ :: ts) = .ok (t, rest)) :
    Locally r Next (⟨k, o⟩ :: ts) t rest := by
  obtain ⟨ks, hs, hk⟩ := h
  refine ⟨k :: ks, .cons hs, fun ts' rest' hs' hnext => ?_⟩
  cases hs' with
  | cons hs' => exact hr _ _ _ (hk _ _ hs' hnext)

theorem Locally.single {k : Token.Kind} {o : Nat} (hr : ∀ o ts, Next (peek ts) → r (⟨k, o⟩ :: ts) = .ok (t, ts)) :
    Locally r Next (⟨k, o⟩ :: ts) t ts := by
  refine ⟨[k], .cons .nil, fun ts' rest' hs hnext => ?_⟩
  obtain ⟨o', rfl⟩ := hs.single
  exact hr _ _ hnext

/-- An operand and what goes on with it. -/
theorem Local.loop {f : α → Reader Expr} {w : α → Expr} {g : Nat} (hr : Local r (Below (g + 1)))
    (hf : ∀ a, Loops (f a) (w a) g) : Local (fun ts => r ts >>= fun x => f x.1 x.2) (Below g) := by
  intro ts t rest h
  obtain ⟨⟨a, mid⟩, ha, ht⟩ := bind_ok h
  obtain ⟨ks, hs, hk⟩ := hr _ _ _ ha
  rcases (hf a).cases ht with ⟨rfl, rfl⟩ | ⟨k, o, ts₁, r', rfl, hgrip, hlocal, hr', hstep⟩
  · refine ⟨ks, hs, fun ts' rest' hall hrest => ?_⟩
    simp only [hk _ _ hall (Nat.lt_succ_of_lt hrest), ok_bind]
    exact (hf a).stop hrest
  · obtain ⟨ks', hs', hk'⟩ := hlocal _ _ _ hr'
    refine ⟨ks ++ ([k] ++ ks'), hs.append (.cons hs'), fun ts' rest' hall hrest => ?_⟩
    obtain ⟨_, hfirst, htail⟩ := hall.split
    obtain ⟨o', more, rfl, hmore⟩ := htail.head
    have hbelow : Below (g + 1) k := Nat.lt_succ_of_le (Nat.le_of_eq hgrip)
    simp only [hk _ _ hfirst hbelow, ok_bind]
    rw [hstep]
    exact hk' _ _ hmore hrest

end

/-! ## The readers of a level -/

namespace Level

structure AllLocal (l : Level) : Prop where
  conditional : Local l.conditional (Below 1)
  negation : Local l.negation (Below 4)
  signed : Local l.signed (Below 7)
  orRight (e : Expr) : Local (l.orRight e) (Below 2)
  andRight (e : Expr) : Local (l.andRight e) (Below 3)
  sumRight (op : BinaryOp) (e : Expr) : Local (l.sumRight op e) (Below 5)
  termRight (op : BinaryOp) (e : Expr) : Local (l.termRight op e) (Below 6)
  subscript (e : Expr) : Local (l.subscript e) (Below 8)
  member (e : Expr) : Local (l.member e) (Below 8)

theorem AllLocal.floor : floor.AllLocal where
  conditional _ _ _ h := nomatch h
  negation _ _ _ h := nomatch h
  signed _ _ _ h := nomatch h
  orRight _ _ _ _ h := nomatch h
  andRight _ _ _ _ h := nomatch h
  sumRight _ _ _ _ _ h := nomatch h
  termRight _ _ _ _ _ h := nomatch h
  subscript _ _ _ _ h := nomatch h
  member _ _ _ _ h := nomatch h

section
variable {n : Nat} (hb : (level n).AllLocal) {ts rest : List Token} {e : Expr}
include hb

/-! ### Sequences -/

theorem AllLocal.sequence {close : Symbol} (hclose : lead (.symbol close) = 0) (hgrip : grip (.symbol close) = 0)
    (hcomma : close ≠ .comma) : ∀ m ts es rest, Parse.sequence (level n).conditional close m ts = .ok (es, rest) →
      ∃ ks, Spelled ks ts rest ∧ ∀ m' ts' rest', Spelled ks ts' rest' → ts'.length ≤ m' →
        Parse.sequence (level n).conditional close m' ts' = .ok (es, rest') := by
  intro m
  induction m with
  | zero => intro ts es rest h; cases h
  | succ m ih =>
    intro ts es rest h
    simp only [Parse.sequence] at h
    split at h
    · rename_i he
      cases h
      obtain ⟨o, rfl⟩ := eat?_some he
      refine ⟨[.symbol close], .cons .nil, fun m' ts' rest' hs hm => ?_⟩
      obtain ⟨o', rfl⟩ := hs.single
      obtain ⟨m', rfl⟩ : ∃ k, m' = k + 1 := ⟨m' - 1, by simp only [List.length_cons] at hm; omega⟩
      simp only [Parse.sequence, eat?_here]
    · obtain ⟨⟨e, ts₁⟩, he, h⟩ := bind_ok h
      obtain ⟨ks, hs, hk⟩ := hb.conditional _ _ _ he
      dsimp only at h
      split at h
      · rename_i hc
        obtain ⟨⟨es', ts₂⟩, hes, h⟩ := bind_ok h
        cases h
        obtain ⟨o, rfl⟩ := eat?_some hc
        obtain ⟨ks', hs', hk'⟩ := ih _ _ _ hes
        refine ⟨ks ++ ([.symbol .comma] ++ ks'), hs.append (.cons hs'), fun m' ts' rest' hall hm => ?_⟩
        obtain ⟨_, hitem, htail⟩ := hall.split
        obtain ⟨o', more, rfl, hmore⟩ := htail.head
        have hitem' := hk _ _ hitem (by simp [Below, peek, grip])
        have hlength := hitem.length_le
        simp only [List.length_cons] at hlength
        obtain ⟨m', rfl⟩ : ∃ k, m' = k + 1 := ⟨m' - 1, by omega⟩
        have hnone : eat? close ts' = none := eat?_none_of_lead (lead_of_reads hitem') hclose
        simp only [Parse.sequence, hnone, hitem', ok_bind, eat?_here, hk' m' _ _ hmore (by omega)]
        rfl
      · obtain ⟨ts₂, hc, h⟩ := bind_ok h
        cases h
        obtain ⟨o, rfl⟩ := expect_ok hc
        refine ⟨ks ++ [.symbol close], hs.append (.cons .nil), fun m' ts' rest' hall hm => ?_⟩
        obtain ⟨_, hitem, htail⟩ := hall.split
        obtain ⟨o', rfl⟩ := htail.single
        have hitem' := hk _ _ hitem (by simp [Below, peek, hgrip])
        have hlength := hitem.length_le
        simp only [List.length_cons] at hlength
        obtain ⟨m', rfl⟩ : ∃ k, m' = k + 1 := ⟨m' - 1, by omega⟩
        have hnone : eat? close ts' = none := eat?_none_of_lead (lead_of_reads hitem') hclose
        simp only [Parse.sequence, hnone, hitem', ok_bind, eat?_other hcomma, expect_here]
        rfl

theorem AllLocal.entries : ∀ m ts kvs rest, Parse.entries (level n).conditional m ts = .ok (kvs, rest) →
      ∃ ks, Spelled ks ts rest ∧ ∀ m' ts' rest', Spelled ks ts' rest' → ts'.length ≤ m' →
        Parse.entries (level n).conditional m' ts' = .ok (kvs, rest') := by
  intro m
  induction m with
  | zero => intro ts kvs rest h; cases h
  | succ m ih =>
    intro ts kvs rest h
    simp only [Parse.entries] at h
    split at h
    · rename_i he
      cases h
      obtain ⟨o, rfl⟩ := eat?_some he
      refine ⟨[.symbol .rbrace], .cons .nil, fun m' ts' rest' hs hm => ?_⟩
      obtain ⟨o', rfl⟩ := hs.single
      obtain ⟨m', rfl⟩ : ∃ k, m' = k + 1 := ⟨m' - 1, by simp only [List.length_cons] at hm; omega⟩
      simp only [Parse.entries, eat?_here]
    · obtain ⟨⟨k, ts₁⟩, hkey, h⟩ := bind_ok h
      obtain ⟨ts₂, hcolon, h⟩ := bind_ok h
      obtain ⟨⟨v, ts₃⟩, hvalue, h⟩ := bind_ok h
      obtain ⟨o, rfl⟩ := expect_ok hcolon
      obtain ⟨ks, hs, hk⟩ := hb.conditional _ _ _ hkey
      obtain ⟨vs, hsv, hv⟩ := hb.conditional _ _ _ hvalue
      dsimp only at h
      split at h
      · rename_i hc
        obtain ⟨⟨kvs', ts₄⟩, hkvs, h⟩ := bind_ok h
        cases h
        obtain ⟨o, rfl⟩ := eat?_some hc
        obtain ⟨ks', hs', hk'⟩ := ih _ _ _ hkvs
        refine ⟨ks ++ ([.symbol .colon] ++ (vs ++ ([.symbol .comma] ++ ks'))),
          hs.append (.cons (hsv.append (.cons hs'))), fun m' ts' rest' hall hm => ?_⟩
        obtain ⟨_, hkeys, htail⟩ := hall.split
        obtain ⟨_, mid, rfl, hbody⟩ := htail.head
        obtain ⟨_, hvalues, htail⟩ := hbody.split
        obtain ⟨_, more, rfl, hmore⟩ := htail.head
        have hkey' := hk _ _ hkeys (by simp [Below, peek, grip])
        have hvalue' := hv _ _ hvalues (by simp [Below, peek, grip])
        have hlength := hkeys.length_le
        have hlength' := hvalues.length_le
        simp only [List.length_cons] at hlength hlength'
        obtain ⟨m', rfl⟩ : ∃ k, m' = k + 1 := ⟨m' - 1, by omega⟩
        have hnone : eat? .rbrace ts' = none := eat?_none_of_lead (lead_of_reads hkey') rfl
        simp only [Parse.entries, hnone, hkey', ok_bind, expect_here, hvalue', eat?_here, hk' m' _ _ hmore (by omega)]
        rfl
      · obtain ⟨ts₄, hc, h⟩ := bind_ok h
        cases h
        obtain ⟨o, rfl⟩ := expect_ok hc
        refine ⟨ks ++ ([.symbol .colon] ++ (vs ++ [.symbol .rbrace])), hs.append (.cons (hsv.append (.cons .nil))),
          fun m' ts' rest' hall hm => ?_⟩
        obtain ⟨_, hkeys, htail⟩ := hall.split
        obtain ⟨_, mid, rfl, hbody⟩ := htail.head
        obtain ⟨_, hvalues, htail⟩ := hbody.split
        obtain ⟨_, rfl⟩ := htail.single
        have hkey' := hk _ _ hkeys (by simp [Below, peek, grip])
        have hvalue' := hv _ _ hvalues (by simp [Below, peek, grip])
        have hlength := hkeys.length_le
        simp only [List.length_cons] at hlength
        obtain ⟨m', rfl⟩ : ∃ k, m' = k + 1 := ⟨m' - 1, by omega⟩
        have hnone : eat? .rbrace ts' = none := eat?_none_of_lead (lead_of_reads hkey') rfl
        simp only [Parse.entries, hnone, hkey', ok_bind, expect_here, hvalue',
          eat?_other (by decide : Symbol.rbrace ≠ .comma)]
        rfl

/-! ### Atoms -/

omit hb in
theorem strings_local (ts : List Token) :
    Locally (fun ts => .ok (strings ts)) (Below 9) ts (strings ts).1 (strings ts).2 := by
  induction ts using strings.induct with
  | case1 s o ts t rest hrest ih =>
    rw [strings]
    refine ih.token fun o ts rest hs => ?_
    simp only [strings, Except.ok.inj hs]
  | case2 ts h =>
    have hs : strings ts = ("", ts) := by
      unfold strings
      split
      · exact absurd rfl (h _ _ _)
      · rfl
    rw [hs]
    exact .stop fun ts hg => congrArg _ (strings_stop hg)

theorem AllLocal.atom : Local (level n).atom (Below 9) := by
  intro ts e rest h
  unfold Level.atom at h
  split at h
  · cases h
    exact .single fun _ _ _ => rfl
  · split at h
    · rename_i hx
      cases h
      exact .single fun _ _ _ => by simp only [Level.atom, hx, if_true]
    · cases h
  · cases h
    exact (strings_local _).token fun o ts rest hs => by simp only [Level.atom, Except.ok.inj hs]
  · split at h
    · cases h
      exact .single fun _ _ hg => atom_name _ hg
    · rename_i hp
      split at h
      · cases h
      · rename_i f hf
        obtain ⟨⟨args, ts₂⟩, hargs, h⟩ := bind_ok h
        cases h
        obtain ⟨o, rfl⟩ := eat?_some hp
        obtain ⟨ks, hs, hk⟩ := hb.sequence rfl rfl (by decide) _ _ _ _ hargs
        refine ⟨_, .cons (.cons hs), fun ts' rest' hall _ => ?_⟩
        rcases hall with _ | ⟨_ | hargs'⟩
        simp only [Level.atom, eat?_here, hf, hk _ _ _ hargs' (Nat.le_refl _), ok_bind]
        rfl
  · cases h
    exact .single fun _ _ _ => rfl
  · cases h
    exact .single fun _ _ _ => rfl
  · cases h
    exact .single fun _ _ _ => rfl
  · obtain ⟨⟨e', ts₁⟩, he, h⟩ := bind_ok h
    obtain ⟨ts₂, hp, h⟩ := bind_ok h
    cases h
    obtain ⟨o, rfl⟩ := expect_ok hp
    obtain ⟨ks, hs, hk⟩ := hb.conditional _ _ _ he
    refine ⟨.symbol .lparen :: (ks ++ [.symbol .rparen]), .cons (hs.append (.cons .nil)), fun ts' rest' hall _ => ?_⟩
    obtain ⟨_, body, rfl, hbody⟩ := Spelled.head hall
    obtain ⟨_, hitem, htail⟩ := hbody.split
    obtain ⟨_, rfl⟩ := htail.single
    simp only [Level.atom, hk _ _ hitem (by simp [Below, peek, grip]), ok_bind, expect_here]
    rfl
  · obtain ⟨⟨es, ts₁⟩, hes, h⟩ := bind_ok h
    cases h
    obtain ⟨ks, hs, hk⟩ := hb.sequence rfl rfl (by decide) _ _ _ _ hes
    refine ⟨_, .cons hs, fun ts' rest' hall _ => ?_⟩
    obtain ⟨_, body, rfl, hbody⟩ := Spelled.head hall
    simp only [Level.atom, hk _ _ _ hbody (Nat.le_refl _), ok_bind]
    rfl
  · obtain ⟨⟨kvs, ts₁⟩, hkvs, h⟩ := bind_ok h
    cases h
    obtain ⟨ks, hs, hk⟩ := hb.entries _ _ _ _ hkvs
    refine ⟨_, .cons hs, fun ts' rest' hall _ => ?_⟩
    obtain ⟨_, body, rfl, hbody⟩ := Spelled.head hall
    simp only [Level.atom, hk _ _ _ hbody (Nat.le_refl _), ok_bind]
    rfl
  · cases h

/-! ### From the postfix forms to sums -/

theorem AllLocal.postfixRest (e : Expr) : Loops ((level n).postfixRest e) e 8 where
  stop := postfixRest_stop
  cases {ts rest t} h := by
    unfold Level.postfixRest at h
    split at h
    · exact Or.inr ⟨_, _, _, _, rfl, rfl, hb.subscript e, h, fun _ _ => rfl⟩
    · exact Or.inr ⟨_, _, _, _, rfl, rfl, hb.member e, h, fun _ _ => rfl⟩
    · cases h
    · cases h
      exact Or.inl ⟨rfl, rfl⟩

theorem AllLocal.postfixed : Local (level n).postfixed (Below 8) := hb.atom.loop hb.postfixRest

theorem AllLocal.power : Local (level n).power (Below 7) := by
  intro ts e rest h
  obtain ⟨⟨base, ts₁⟩, hbase, h⟩ := bind_ok h
  obtain ⟨ks, hs, hk⟩ := hb.postfixed _ _ _ hbase
  dsimp only at h
  split at h
  · rename_i he
    obtain ⟨⟨exponent, ts₂⟩, hexponent, h⟩ := bind_ok h
    cases h
    obtain ⟨o, rfl⟩ := eat?_some he
    obtain ⟨ks', hs', hk'⟩ := hb.signed _ _ _ hexponent
    refine ⟨ks ++ ([.symbol .starStar] ++ ks'), hs.append (.cons hs'), fun ts' rest' hall hg => ?_⟩
    obtain ⟨_, hfirst, htail⟩ := hall.split
    obtain ⟨_, more, rfl, hmore⟩ := htail.head
    simp only [Level.power, hk _ _ hfirst (by simp [Below, peek, grip]), ok_bind, eat?_here, hk' _ _ hmore hg]
    rfl
  · cases h
    refine ⟨ks, hs, fun ts' rest' hall hg => ?_⟩
    simp only [Level.power, hk _ _ hall (Nat.lt_succ_of_lt hg), ok_bind, eat?_none_of_grip (s := .starStar) hg]
    rfl

theorem AllLocal.signedHere : Local (level n).signedHere (Below 7) := by
  intro ts e rest h
  unfold Level.signedHere at h
  split at h
  · obtain ⟨⟨a, ts₁⟩, ha, h⟩ := bind_ok h
    cases h
    exact (hb.signed _ _ _ ha).token fun _ _ _ ha => by simp only [Level.signedHere, ha, ok_bind]; rfl
  · obtain ⟨⟨a, ts₁⟩, ha, h⟩ := bind_ok h
    cases h
    exact (hb.signed _ _ _ ha).token fun _ _ _ ha => by simp only [Level.signedHere, ha, ok_bind]; rfl
  · obtain ⟨ks, hs, hk⟩ := hb.power _ _ _ h
    exact ⟨ks, hs, fun ts' rest' hall hg => (Reads.signedHere ⟨fun hs hg => hk _ _ hs hg⟩).reads hall hg⟩

theorem AllLocal.termRest (e : Expr) : Loops ((level n).termRest e) e 6 where
  stop := termRest_stop
  cases {ts rest t} h := by
    unfold Level.termRest at h
    split at h
    · exact Or.inr ⟨_, _, _, _, rfl, rfl, hb.termRight .mul e, h, fun _ _ => rfl⟩
    · exact Or.inr ⟨_, _, _, _, rfl, rfl, hb.termRight .div e, h, fun _ _ => rfl⟩
    · exact Or.inr ⟨_, _, _, _, rfl, rfl, hb.termRight .floorDiv e, h, fun _ _ => rfl⟩
    · exact Or.inr ⟨_, _, _, _, rfl, rfl, hb.termRight .mod e, h, fun _ _ => rfl⟩
    · cases h
      exact Or.inl ⟨rfl, rfl⟩

theorem AllLocal.term : Local (level n).term (Below 6) := hb.signedHere.loop hb.termRest

theorem AllLocal.sumRest (e : Expr) : Loops ((level n).sumRest e) e 5 where
  stop := sumRest_stop
  cases {ts rest t} h := by
    unfold Level.sumRest at h
    split at h
    · exact Or.inr ⟨_, _, _, _, rfl, rfl, hb.sumRight .add e, h, fun _ _ => rfl⟩
    · exact Or.inr ⟨_, _, _, _, rfl, rfl, hb.sumRight .sub e, h, fun _ _ => rfl⟩
    · cases h
      exact Or.inl ⟨rfl, rfl⟩

theorem AllLocal.sum : Local (level n).sum (Below 5) := hb.term.loop hb.sumRest

/-! ### Comparisons -/

theorem AllLocal.links : ∀ m ts ls rest, (level n).links m ts = .ok (ls, rest) →
    (ts = rest ∨ Below 5 (peek ts)) ∧ ∃ ks, Spelled ks ts rest ∧ ∀ m' ts' rest', Spelled ks ts' rest' →
      Below 4 (peek rest') → ts'.length ≤ m' → (level n).links m' ts' = .ok (ls, rest') := by
  have hstop : ∀ ts : List Token, ∃ ks, Spelled ks ts ts ∧ ∀ m' ts' rest', Spelled ks ts' rest' →
      Below 4 (peek rest') → ts'.length ≤ m' → (level n).links m' ts' = .ok ([], rest') := fun ts => by
    refine ⟨[], .nil, fun m' ts' rest' hs hg _ => ?_⟩
    cases hs
    exact links_stop hg m'
  intro m
  induction m with
  | zero =>
    intro ts ls rest h
    cases h
    exact ⟨Or.inl rfl, hstop ts⟩
  | succ m ih =>
    intro ts ls rest h
    simp only [Level.links] at h
    split at h
    · cases h
      exact ⟨Or.inl rfl, hstop ts⟩
    · rename_i r ts₁ hr
      obtain ⟨⟨e, ts₂⟩, he, h⟩ := bind_ok h
      obtain ⟨⟨ls', ts₃⟩, hls, h⟩ := bind_ok h
      cases h
      have hr := relation?_some hr
      have hopens : Below 5 (peek ts) := by rw [Below, hr.grip]; decide
      obtain ⟨ks, hs, hk⟩ := hb.sum _ _ _ he
      obtain ⟨hnext, ks', hs', hk'⟩ := ih _ _ _ hls
      refine ⟨Or.inr hopens, spelling r ++ (ks ++ ks'), hr.append (hs.append hs'), fun m' ts' rest' hall hg hm => ?_⟩
      obtain ⟨ts₁', hrelation, htail⟩ := hall.split
      obtain ⟨ts₂', hoperand, hmore⟩ := htail.split
      have he' := hk _ _ hoperand (hs'.peek hmore hnext (Nat.lt_succ_of_lt hg))
      have hlead := ((level_sound n).sum he').leads (by decide)
      have hlength := hrelation.length
      have hlength' := hoperand.length_le
      have hpos : 0 < (spelling r).length := by cases r <;> decide
      obtain ⟨m', rfl⟩ : ∃ k, m' = k + 1 := ⟨m' - 1, by omega⟩
      simp only [Level.links, relation?_spelled hrelation hlead.2, he', ok_bind, hk' m' _ _ hmore hg (by omega)]
      rfl

theorem AllLocal.comparison : Local (level n).comparison (Below 4) := by
  intro ts e rest h
  obtain ⟨⟨first, ts₁⟩, hfirst, h⟩ := bind_ok h
  obtain ⟨⟨ls, ts₂⟩, hls, h⟩ := bind_ok h
  cases h
  obtain ⟨ks, hs, hk⟩ := hb.sum _ _ _ hfirst
  obtain ⟨hnext, ks', hs', hk'⟩ := hb.links _ _ _ _ hls
  refine ⟨ks ++ ks', hs.append hs', fun ts' rest' hall hg => ?_⟩
  obtain ⟨_, hoperand, hmore⟩ := hall.split
  have hfirst' := hk _ _ hoperand (hs'.peek hmore hnext (Nat.lt_succ_of_lt hg))
  simp only [Level.comparison, hfirst', ok_bind, hk' _ _ _ hmore hg (Nat.le_refl _)]
  rfl

/-! ### From `not` to the choice -/

theorem AllLocal.negationHere : Local (level n).negationHere (Below 4) := by
  intro ts e rest h
  unfold Level.negationHere at h
  split at h
  · obtain ⟨⟨a, ts₁⟩, ha, h⟩ := bind_ok h
    cases h
    exact (hb.negation _ _ _ ha).token fun _ _ _ ha => by simp only [Level.negationHere, ha, ok_bind]; rfl
  · obtain ⟨ks, hs, hk⟩ := hb.comparison _ _ _ h
    exact ⟨ks, hs, fun ts' rest' hall hg => (Reads.negationHere ⟨fun hs hg => hk _ _ hs hg⟩).reads hall hg⟩

theorem AllLocal.andRest (e : Expr) : Loops ((level n).andRest e) e 3 where
  stop := andRest_stop
  cases {ts rest t} h := by
    unfold Level.andRest at h
    split at h
    · exact Or.inr ⟨_, _, _, _, rfl, rfl, hb.andRight e, h, fun _ _ => rfl⟩
    · cases h
      exact Or.inl ⟨rfl, rfl⟩

theorem AllLocal.conjunction : Local (level n).conjunction (Below 3) := hb.negationHere.loop hb.andRest

theorem AllLocal.orRest (e : Expr) : Loops ((level n).orRest e) e 2 where
  stop := orRest_stop
  cases {ts rest t} h := by
    unfold Level.orRest at h
    split at h
    · exact Or.inr ⟨_, _, _, _, rfl, rfl, hb.orRight e, h, fun _ _ => rfl⟩
    · cases h
      exact Or.inl ⟨rfl, rfl⟩

theorem AllLocal.disjunction : Local (level n).disjunction (Below 2) := hb.conjunction.loop hb.orRest

theorem AllLocal.conditionalHere : Local (level n).conditionalHere (Below 1) := by
  intro ts e rest h
  obtain ⟨⟨yes, ts₁⟩, hyes, h⟩ := bind_ok h
  obtain ⟨ks, hs, hk⟩ := hb.disjunction _ _ _ hyes
  dsimp only at h
  split at h
  · cases h
    refine ⟨ks, hs, fun ts' rest' hall hg => ?_⟩
    simp only [Level.conditionalHere, hk _ _ hall (Nat.lt_succ_of_lt hg), ok_bind, eat?_none_of_grip (s := .kwIf) hg]
    rfl
  · rename_i hif
    obtain ⟨⟨c, ts₂⟩, hc, h⟩ := bind_ok h
    obtain ⟨ts₃, helse, h⟩ := bind_ok h
    obtain ⟨⟨no, ts₄⟩, hno, h⟩ := bind_ok h
    cases h
    obtain ⟨_, rfl⟩ := eat?_some hif
    obtain ⟨_, rfl⟩ := expect_ok helse
    obtain ⟨cs, hsc, hkc⟩ := hb.disjunction _ _ _ hc
    obtain ⟨ns, hsn, hkn⟩ := hb.conditional _ _ _ hno
    refine ⟨ks ++ ([.symbol .kwIf] ++ (cs ++ ([.symbol .kwElse] ++ ns))),
      hs.append (.cons (hsc.append (.cons hsn))), fun ts' rest' hall hg => ?_⟩
    obtain ⟨_, hyes', htail⟩ := hall.split
    obtain ⟨_, _, rfl, hbody⟩ := htail.head
    obtain ⟨_, hc', htail⟩ := hbody.split
    obtain ⟨_, _, rfl, hno'⟩ := htail.head
    simp only [Level.conditionalHere, hk _ _ hyes' (by simp [Below, peek, grip]), ok_bind, eat?_here,
      hkc _ _ hc' (by simp [Below, peek, grip]), expect_here, hkn _ _ hno' hg]
    rfl

/-! ### Subscripts -/

/-- What ends a bound of a slice. -/
def EndsBound (k : Token.Kind) : Prop := k = .symbol .colon ∨ k = .symbol .rbracket

omit hb in
theorem bound_none (h : EndsBound (peek ts)) : (level n).bound ts = .ok (none, ts) := by
  cases ts with
  | nil => simp [EndsBound, peek] at h
  | cons t ts =>
    obtain ⟨k, o⟩ := t
    rcases h with rfl | rfl <;> rfl

theorem AllLocal.bound : Local (level n).bound EndsBound := by
  intro ts b rest h
  unfold Level.bound at h
  split at h
  · cases h
    exact .stop fun _ => bound_none
  · cases h
    exact .stop fun _ => bound_none
  · obtain ⟨⟨e, ts₁⟩, he, h⟩ := bind_ok h
    cases h
    obtain ⟨ks, hs, hk⟩ := hb.conditional _ _ _ he
    refine ⟨ks, hs, fun ts' rest' hall hend => ?_⟩
    have he' := hk _ _ hall (by rcases hend with hend | hend <;> simp [Below, hend, grip])
    have hlead := lead_of_reads he'
    unfold Level.bound
    split
    · simp [peek, lead] at hlead
    · simp [peek, lead] at hlead
    · simp only [he', ok_bind]
      rfl

/-- The closing bracket is taken too, so anything may follow. -/
theorem AllLocal.sliceRest {Next : Token.Kind → Prop} (target : Expr) (start : Option Expr) :
    Local ((level n).sliceRest target start) Next := by
  intro ts e rest h
  obtain ⟨⟨stop, ts₁⟩, hstop, h⟩ := bind_ok h
  obtain ⟨ks, hs, hk⟩ := hb.bound _ _ _ hstop
  dsimp only at h
  split at h
  · rename_i hcolon
    obtain ⟨⟨step, ts₃⟩, hstep, h⟩ := bind_ok h
    obtain ⟨ts₄, hclose, h⟩ := bind_ok h
    cases h
    obtain ⟨_, rfl⟩ := eat?_some hcolon
    obtain ⟨_, rfl⟩ := expect_ok hclose
    obtain ⟨ks', hs', hk'⟩ := hb.bound _ _ _ hstep
    refine ⟨ks ++ ([.symbol .colon] ++ (ks' ++ [.symbol .rbracket])), hs.append (.cons (hs'.append (.cons .nil))),
      fun ts' rest' hall _ => ?_⟩
    obtain ⟨_, hstop', htail⟩ := hall.split
    obtain ⟨_, _, rfl, hbody⟩ := htail.head
    obtain ⟨_, hstep', htail⟩ := hbody.split
    obtain ⟨_, rfl⟩ := htail.single
    simp only [Level.sliceRest, hk _ _ hstop' (Or.inl rfl), ok_bind, eat?_here, hk' _ _ hstep' (Or.inr rfl),
      expect_here]
    rfl
  · obtain ⟨⟨step, ts₃⟩, hstep, h⟩ := bind_ok h
    obtain ⟨ts₄, hclose, h⟩ := bind_ok h
    cases hstep
    cases h
    obtain ⟨_, rfl⟩ := expect_ok hclose
    refine ⟨ks ++ [.symbol .rbracket], hs.append (.cons .nil), fun ts' rest' hall _ => ?_⟩
    obtain ⟨_, hstop', htail⟩ := hall.split
    obtain ⟨_, rfl⟩ := htail.single
    simp only [Level.sliceRest, hk _ _ hstop' (Or.inr rfl), ok_bind, eat?_other (by decide : Symbol.rbracket ≠ .colon),
      expect_here]
    rfl

theorem AllLocal.subscriptHere {Next : Token.Kind → Prop} (target : Expr) :
    Local ((level n).subscriptHere target) Next := by
  intro ts e rest h
  unfold Level.subscriptHere at h
  split at h
  · rename_i hcolon
    obtain ⟨_, rfl⟩ := eat?_some hcolon
    refine (hb.sliceRest target none _ _ _ h).token fun _ _ _ h => ?_
    simp only [Level.subscriptHere, eat?_here, h]
  · obtain ⟨⟨i, ts₁⟩, hi, h⟩ := bind_ok h
    obtain ⟨ks, hs, hk⟩ := hb.conditional _ _ _ hi
    dsimp only at h
    split at h
    · rename_i hcolon
      obtain ⟨_, rfl⟩ := eat?_some hcolon
      have hslice : Locally ((level n).sliceRest target (some i)) Next _ e rest := hb.sliceRest target (some i) _ _ _ h
      obtain ⟨ks', hs', hk'⟩ := hslice
      refine ⟨ks ++ ([.symbol .colon] ++ ks'), hs.append (.cons hs'), fun ts' rest' hall hnext => ?_⟩
      obtain ⟨_, hstart, htail⟩ := hall.split
      obtain ⟨_, _, rfl, hbody⟩ := htail.head
      have hi' := hk _ _ hstart (by simp [Below, peek, grip])
      have hnone : eat? .colon ts' = none := eat?_none_of_lead (lead_of_reads hi') rfl
      simp only [Level.subscriptHere, hnone, hi', ok_bind, eat?_here, hk' _ _ hbody hnext]
    · obtain ⟨ts₂, hclose, h⟩ := bind_ok h
      cases h
      obtain ⟨_, rfl⟩ := expect_ok hclose
      refine ⟨ks ++ [.symbol .rbracket], hs.append (.cons .nil), fun ts' rest' hall _ => ?_⟩
      obtain ⟨_, hindex, htail⟩ := hall.split
      obtain ⟨_, rfl⟩ := htail.single
      have hi' := hk _ _ hindex (by simp [Below, peek, grip])
      have hnone : eat? .colon ts' = none := eat?_none_of_lead (lead_of_reads hi') rfl
      simp only [Level.subscriptHere, hnone, hi', ok_bind, eat?_other (by decide : Symbol.rbracket ≠ .colon),
        expect_here]
      rfl

omit hb in
theorem memberHere_local (target : Expr) : Local (memberHere target) (Below 9) := by
  intro ts e rest h
  unfold memberHere at h
  split at h
  · split at h
    · cases h
    · cases h
      exact .single fun _ _ hg => memberHere_name hg
  · cases h

/-! ### The level above -/

theorem AllLocal.above : (level (n + 1)).AllLocal where
  conditional := hb.conditionalHere
  negation := hb.negationHere
  signed := hb.signedHere
  orRight left := hb.conjunction.loop fun right => hb.orRest (.or left right)
  andRight left := hb.negationHere.loop fun right => hb.andRest (.and left right)
  sumRight op left := hb.term.loop fun right => hb.sumRest (.binary op left right)
  termRight op left := hb.signedHere.loop fun right => hb.termRest (.binary op left right)
  subscript target := (hb.subscriptHere target).loop hb.postfixRest
  member target := (memberHere_local target).loop hb.postfixRest

end

end Level

theorem level_local (n : Nat) : (level n).AllLocal := by
  induction n with
  | zero => exact .floor
  | succ n ih => exact ih.above

/-- What is read once as an expression, in so many levels, is read as it wherever its tokens stand. -/
theorem reads_of_ok {n : Nat} {ts rest : List Token} {e : Expr} {ks : List Token.Kind}
    (h : (level n).conditional ts = .ok (e, rest)) (hs : Spelled ks ts rest) : Reads (level n).conditional ks e 1 := by
  obtain ⟨ks', hs', hk⟩ := (level_local n).conditional _ _ _ h
  rw [hs.unique hs']
  exact ⟨fun hs hg => hk _ _ hs hg⟩

/-- Where its tokens stand makes no difference to a tree. -/
theorem expression_kinds {ts ts' : List Token} {e : Expr} (hkinds : ts.map (·.kind) = ts'.map (·.kind))
    (h : expression ts = .ok e) : expression ts' = .ok e := by
  obtain ⟨⟨e', rest⟩, he, h⟩ := bind_ok h
  obtain ⟨ks, hs, hk⟩ := (level_local maxDepth).conditional _ _ _ he
  obtain ⟨rest', hs', hrest⟩ := spelled_of_kinds (hkinds.symm.trans hs.kinds)
  have hpeek : peek rest' = peek rest := by
    cases rest <;> cases rest' <;> simp_all [peek]
  dsimp only at h
  split at h
  · rename_i hp
    cases h
    have hread := hk ts' rest' hs' (by simp [Below, hpeek, hp, grip])
    simp only [expression, hread, ok_bind, hpeek, hp]
    rfl
  · cases h

end Parse

end MockSchema
