/-
  MockSchema.Proofs.SessionIsolation — which requests of a session a response depends on.

  A render, and a value that is no request, are answered as in a new session and leave the cursors
  where they stand (`handle_aside`). So they can be left out of a session, some or all of them, and the
  other requests get the responses that they had (`handleAll_aside`).
-/

import MockSchema.Session

namespace MockSchema.Session

/-- A render, or a value that is no request. -/
inductive Aside (request : Value) : Prop
  | render {schema : Value} {d : RequestData} {env : Dict Value} :
      Request.decode request = .ok (.render schema d env) → Aside request
  | undecodable {e : DecodeError} : Request.decode request = .error e → Aside request

/-- Where the cursors stand after requests. -/
def cursorsAfter (src : Source) (coerced : Bool) : List Value → Cursors → Cursors
  | [], cursors => cursors
  | r :: rs, cursors => cursorsAfter src coerced rs (handle src coerced r cursors).2

/-- The elements of a list at the places that are flagged. -/
def picked {α : Type} : List Bool → List α → List α
  | true :: flags, x :: xs => x :: picked flags xs
  | false :: flags, _ :: xs => picked flags xs
  | _, _ => []

variable {src : Source} {coerced : Bool} {r : Value}

@[simp] theorem handleAll_nil (c : Cursors) : handleAll src coerced [] c = [] := rfl

theorem handleAll_cons (rs : List Value) (c : Cursors) :
    handleAll src coerced (r :: rs) c =
      (handle src coerced r c).1 :: handleAll src coerced rs (handle src coerced r c).2 := rfl

/-- What one request of this kind does: the cursors stay, and the response does not depend on them. -/
theorem handle_aside (h : Aside r) (c d : Cursors) :
    (handle src coerced r c).1 = (handle src coerced r d).1 ∧ (handle src coerced r c).2 = c := by
  cases h with
  | render hr => simp only [handle, hr, and_self]
  | undecodable hr => simp only [handle, hr, and_self]

/-- Each response is given from the cursors that the requests before it left. -/
theorem getElem?_handleAll {rs : List Value} {i : Nat} (c : Cursors) (hr : rs[i]? = some r) :
    (handleAll src coerced rs c)[i]? =
      some (handle src coerced r (cursorsAfter src coerced (rs.take i) c)).1 := by
  induction rs generalizing i c with
  | nil => simp at hr
  | cons q rs ih =>
    rw [handleAll_cons]
    cases i with
    | zero =>
      have hq : q = r := by simpa using hr
      subst hq
      rfl
    | succ i => exact ih _ hr

/-- Leaving out requests of this kind leaves out their responses. -/
theorem handleAll_picked {flags : List Bool} {rs : List Value} (c : Cursors)
    (h : ∀ q, (false, q) ∈ flags.zip rs → Aside q) :
    handleAll src coerced (picked flags rs) c = picked flags (handleAll src coerced rs c) := by
  induction rs generalizing flags c with
  | nil => cases flags with
    | nil => rfl
    | cons flag flags => cases flag <;> rfl
  | cons q rs ih =>
    cases flags with
    | nil => rfl
    | cons flag flags =>
      have hrest : ∀ p, (false, p) ∈ flags.zip rs → Aside p := fun p hp => h p (List.mem_cons_of_mem _ hp)
      rw [handleAll_cons]
      cases flag with
      | true =>
        rw [picked, picked, handleAll_cons, ih _ hrest]
      | false =>
        -- the request that goes left the cursors to the rest as they were
        have hq : Aside q := h q List.mem_cons_self
        rw [picked, picked, (handle_aside hq c c).2, ih c hrest]

/-- A render and a value that is no request get the response of a new session to them alone, wherever they
stand among the requests; and any of them can be left out without a change of the responses to the
requests that are kept. -/
theorem handleAll_aside (src : Source) (coerced : Bool) (requests : List Value) :
    (∀ (i : Nat) r, requests[i]? = some r → Aside r → ∃ response,
      handleAll src coerced [r] [] = [response] ∧ (handleAll src coerced requests [])[i]? = some response) ∧
    (∀ flags : List Bool, (∀ r, (false, r) ∈ flags.zip requests → Aside r) →
      handleAll src coerced (picked flags requests) [] = picked flags (handleAll src coerced requests [])) := by
  refine ⟨fun i r hi hr => ⟨(handle src coerced r []).1, rfl, ?_⟩, fun flags h => handleAll_picked [] h⟩
  rw [getElem?_handleAll [] hi, (handle_aside hr _ []).1]

/-- Two examples that share a cursor, with a failing render and a value that is no request between them. -/
theorem handleAll_aside_between_examples :
    let src := Memory.empty.source
    let expand : Value := .object [("op", .str "example"), ("example", .list [.int 1, .int 2])]
    let failing : Value := .object [("schema", .str "x")]
    let requests := [expand, failing, .null, expand]
    let flags := [true, false, false, true]
    Aside failing ∧ Aside .null ∧
      handleAll src true [expand, expand] [] = picked flags (handleAll src true requests []) ∧
      ∃ response, handleAll src true [failing] [] = [response] ∧
        (handleAll src true requests [])[1]? = some response := by
  intro src expand failing requests flags
  have hdecode : Request.decode failing = .ok (.render (.str "x") RequestData.empty []) := rfl
  have hdecode' : Request.decode .null = .error .notAnObject := rfl
  have hf : Aside failing := .render hdecode
  have hn : Aside .null := .undecodable hdecode'
  have h := handleAll_aside src true requests
  refine ⟨hf, hn, h.2 flags ?_, h.1 1 failing rfl hf⟩
  intro r hr
  have : r = failing ∨ r = .null := by simpa [flags, requests] using hr
  rcases this with rfl | rfl
  · exact hf
  · exact hn

end MockSchema.Session
