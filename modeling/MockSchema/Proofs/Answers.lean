/-
  MockSchema.Proofs.Answers — the responses to an input of lines.

  The lines of an input are texts, up to the first that is none; those that are not blank get one response each, in
  their order (`Answered`). A text that is no JSON is answered alone, without a trace in the session; what the other
  texts are read as makes up the session's requests. A line that is no text ends the run with a failure after the
  responses to the lines before it, and nothing else does (`serve_answers`).

  The first line alone gets the same response. It keeps its carriage return, if it has one, and that makes no
  difference: neither to whether it is text (`decodeText?_chomp`), nor to whether it is blank, nor to what is read
  from it.
-/

import MockSchema.Program.Commands
import MockSchema.Proofs.SessionIsolation
import MockSchema.Proofs.TrailingSpace
import MockSchema.Proofs.WrittenLine

namespace MockSchema.Program

/-! ## Lines -/

/-- Lines that make up an input: there is no line feed in them, and they are the input with a line feed after each,
the last perhaps excepted. -/
structure MakeUp (lines : List (List UInt8)) (input : List UInt8) : Prop where
  whole : ∀ line ∈ lines, lineFeed ∉ line
  joined : lines.flatMap (· ++ [lineFeed]) = input ∨
    lines.flatMap (· ++ [lineFeed]) = input ++ [lineFeed] ∧ ∃ b, input.getLast? = some b ∧ b ≠ lineFeed

theorem splitLines_eq_nil {input : List UInt8} (h : splitLines input = []) : input = [] := by
  cases input with
  | nil => rfl
  | cons b bs =>
    simp only [splitLines] at h
    split at h
    · cases h
    · split at h <;> cases h

theorem splitLines_makeUp (input : List UInt8) : MakeUp (splitLines input) input := by
  induction input with
  | nil => exact ⟨nofun, Or.inl rfl⟩
  | cons b bs ih =>
    simp only [splitLines]
    by_cases hb : b = lineFeed
    · rw [if_pos hb, hb]
      refine ⟨List.forall_mem_cons.2 ⟨nofun, ih.whole⟩, ?_⟩
      rcases ih.joined with h | ⟨h, e, hlast, he⟩
      · left
        simp [h]
      · right
        refine ⟨by simp [h], e, ?_, he⟩
        rw [List.getLast?_cons, hlast]
        rfl
    · rw [if_neg hb]
      cases hl : splitLines bs with
      | nil =>
        rw [splitLines_eq_nil hl]
        refine ⟨?_, Or.inr ⟨rfl, b, rfl, hb⟩⟩
        simpa using fun e => hb e.symm
      | cons line lines =>
        rw [hl] at ih
        have hwhole := List.forall_mem_cons.1 ih.whole
        refine ⟨List.forall_mem_cons.2 ⟨?_, hwhole.2⟩, ?_⟩
        · simp only [List.mem_cons, not_or]
          exact ⟨fun e => hb e.symm, hwhole.1⟩
        · rcases ih.joined with h | ⟨h, e, hlast, he⟩
          · left
            simpa using h
          · right
            refine ⟨by simpa using h, e, ?_, he⟩
            rw [List.getLast?_cons, hlast]
            rfl

/-! ## Bytes and text -/

/-- The bytes that are a text. -/
theorem decodeText?_eq_some {bytes : List UInt8} {s : String} :
    decodeText? bytes = some s ↔ bytes = s.toList.flatMap String.utf8EncodeChar := by
  have hbytes : bytes = s.toList.flatMap String.utf8EncodeChar ↔ s.toByteArray = ⟨bytes.toArray⟩ := by
    rw [← String.utf8Encode_toList, List.utf8Encode]
    constructor
    · intro h
      rw [h]
      exact ByteArray.ext List.data_toByteArray
    · intro h
      have hdata := congrArg (fun b => b.data.toList) h
      simpa [List.data_toByteArray] using hdata.symm
  rw [hbytes]
  unfold decodeText? String.fromUTF8?
  constructor
  · intro h
    split at h
    · cases h; rfl
    · cases h
  · intro h
    rw [← h, dif_pos s.isValidUTF8]
    rfl

/-- No character but the carriage return itself has its byte as the last of its bytes. -/
theorem utf8EncodeChar_cr {c : Char} {bs : List UInt8} (h : String.utf8EncodeChar c = bs ++ [carriageReturn]) :
    c = '\r' ∧ bs = [] := by
  have hlast : (String.utf8EncodeChar c).getLast? = some carriageReturn := by rw [h, List.getLast?_concat]
  have hlow : ∀ n : Nat, UInt8.ofNat (n % 64 + 128) ≠ carriageReturn := by
    intro n e
    have he : (UInt8.ofNat (n % 64 + 128)).toNat = 13 := congrArg UInt8.toNat e
    rw [UInt8.toNat_ofNat'] at he
    omega
  rw [String.utf8EncodeChar.eq_1] at hlast h
  split at hlast
  · rename_i hc
    have he : (UInt8.ofNat c.val.toNat).toNat = 13 := congrArg UInt8.toNat (Option.some.inj hlast)
    rw [UInt8.toNat_ofNat'] at he
    refine ⟨Char.ext (UInt32.toNat_inj.1 ?_), ?_⟩
    · show c.val.toNat = 13
      omega
    · rw [if_pos hc] at h
      have hlen := congrArg List.length h
      simp only [List.length_append, List.length_cons, List.length_nil] at hlen
      exact List.eq_nil_of_length_eq_zero (by omega)
  · split at hlast
    · exact absurd (Option.some.inj hlast) (hlow _)
    · split at hlast
      · exact absurd (Option.some.inj hlast) (hlow _)
      · exact absurd (Option.some.inj hlast) (hlow _)

theorem decodeText?_cr (bytes : List UInt8) :
    decodeText? (bytes ++ [carriageReturn]) = (decodeText? bytes).map (· ++ "\r") := by
  have hcr : String.utf8EncodeChar '\r' = [carriageReturn] := by decide
  cases h : decodeText? bytes with
  | some s =>
    rw [Option.map_some, decodeText?_eq_some, decodeText?_eq_some.1 h]
    simp [hcr]
  | none =>
    rw [Option.map_none]
    cases h' : decodeText? (bytes ++ [carriageReturn]) with
    | none => rfl
    | some t =>
      have ht := decodeText?_eq_some.1 h'
      rcases List.eq_nil_or_concat t.toList with hnil | ⟨cs, c, hcs⟩
      · simp [hnil] at ht
      · -- the last character is the carriage return, and the others make a text of the bytes before it
        rw [hcs, List.concat_eq_append, List.flatMap_append, List.flatMap_singleton] at ht
        rcases List.eq_nil_or_concat (String.utf8EncodeChar c) with hne | ⟨bs, b, hb⟩
        · exact absurd hne String.utf8EncodeChar_ne_nil
        · rw [List.concat_eq_append] at hb
          rw [hb, ← List.append_assoc] at ht
          obtain ⟨hbytes, hlast⟩ := List.append_inj' ht rfl
          rw [← List.singleton_inj.1 hlast] at hb
          obtain ⟨-, rfl⟩ := utf8EncodeChar_cr hb
          rw [List.append_nil] at hbytes
          have hsome : decodeText? bytes = some (String.ofList cs) := by
            rw [decodeText?_eq_some, String.toList_ofList]
            exact hbytes
          rw [hsome] at h
          cases h

/-- A carriage return at the end of a line makes no text of it and spoils none. -/
theorem decodeText?_chomp (line : List UInt8) :
    decodeText? line = decodeText? (chomp line) ∨
      decodeText? line = (decodeText? (chomp line)).map (· ++ "\r") := by
  unfold chomp
  split
  · rename_i h
    obtain ⟨bytes, rfl⟩ := List.getLast?_eq_some_iff.1 h
    rw [List.dropLast_concat]
    exact Or.inr (decodeText?_cr bytes)
  · exact Or.inl rfl

/-! ## The end of a line -/

theorem isBlankText_cr (s : String) : Text.isBlankText (s ++ "\r") = Text.isBlankText s := by
  rw [Bool.eq_iff_iff, Text.isBlankText_iff, Text.isBlankText_iff, String.toList_append]
  constructor
  · intro h c hc
    exact h c (List.mem_append_left _ hc)
  · intro h c hc
    rcases List.mem_append.1 hc with hc | hc
    · exact h c hc
    · rw [List.mem_singleton.1 hc]
      decide

section
variable {src : Source} {coerced : Bool}

theorem answerText_cr (s : String) (cursors : Cursors) :
    answerText src coerced (s ++ "\r") cursors = answerText src coerced s cursors := by
  have hspace : Json.Spaces ['\r'] := List.forall_mem_singleton.2 rfl
  have hread : Json.read (s ++ "\r") = Json.read s := Json.read_spaced hspace s
  rw [answerText, answerText, hread]

/-- The first line is answered as a line of its own. -/
theorem answerFirst_eq {line : List UInt8} {lines : List (List UInt8)} {input : List UInt8} {s : String}
    (hl : splitLines input = line :: lines) (hs : decodeText? (chomp line) = some s) (hb : Text.isBlankText s = false) :
    answerFirst src coerced input = .ok (answerText src coerced s []).1 := by
  unfold answerFirst
  rw [hl, List.headD_cons]
  rcases decodeText?_chomp line with h | h
  · rw [h, hs]
    simp [hb]
  · rw [h, hs]
    simp [isBlankText_cr, answerText_cr, hb]

/-! ## Lines and responses -/

/-- The lines of an input, each as a text if it is one. -/
def texts (input : List UInt8) : List (Option String) := (splitLines input).map fun line => decodeText? (chomp line)

/-- What there is before the first gap. -/
def upToNone {α : Type} : List (Option α) → List α
  | some a :: rest => a :: upToNone rest
  | _ => []

/-- The lines that are answered. -/
def asked (lines : List (Option String)) : List String := (upToNone lines).filter (!Text.isBlankText ·)

/-- Responses to texts, one for each: what is no JSON and what is no request gets an error, and the values that are
read are the requests of one session. -/
structure Answered (src : Source) (coerced : Bool) (asked : List String) (responses : List Response) : Prop where
  count : responses.length = asked.length
  malformed : ∀ (i : Nat) s, asked[i]? = some s → Json.read s = none →
    responses[i]? = some (Response.badRequest "JSON error: malformed text")
  undecodable : ∀ (i : Nat) s v e, asked[i]? = some s → Json.read s = some v → Request.decode v = .error e →
    responses[i]? = some (Response.ofDecodeError e)
  session : Session.picked (asked.map fun s => (Json.read s).isSome) responses =
    Session.handleAll src coerced (asked.filterMap Json.read) []
  oneLine : ∀ r ∈ responses, '\n' ∉ (Json.write r.toValue).toList

/-- The answers to texts, from these cursors on. -/
def answerAll (src : Source) (coerced : Bool) : List String → Cursors → List Answer
  | [], _ => []
  | s :: ss, cursors =>
    (answerText src coerced s cursors).1 :: answerAll src coerced ss (answerText src coerced s cursors).2

theorem answerLines_eq (lines : List (List UInt8)) (cursors : Cursors) :
    answerLines src coerced lines cursors =
      (answerAll src coerced (asked (lines.map fun line => decodeText? (chomp line))) cursors,
        if none ∈ lines.map fun line => decodeText? (chomp line) then some .badInput else none) := by
  induction lines generalizing cursors with
  | nil => rfl
  | cons line lines ih =>
    simp only [answerLines, answerLine, List.map_cons]
    cases hs : decodeText? (chomp line) with
    | none => simp [asked, upToNone, answerAll]
    | some s =>
      by_cases hb : Text.isBlankText s = true
      · simp [hb, ih, asked, upToNone]
      · simp [hb, ih, asked, upToNone, answerAll]

theorem answerAll_session (ss : List String) (cursors : Cursors) :
    Session.picked (ss.map fun s => (Json.read s).isSome) ((answerAll src coerced ss cursors).map (·.response)) =
      Session.handleAll src coerced (ss.filterMap Json.read) cursors := by
  induction ss generalizing cursors with
  | nil => rfl
  | cons s ss ih =>
    simp only [answerAll, answerText, List.map_cons]
    cases hv : Json.read s with
    | none => simp [hv, ih, Session.picked]
    | some v =>
      rw [List.filterMap_cons_some hv, Session.handleAll_cons]
      simp [ih, Session.picked]

theorem length_answerAll (ss : List String) (cursors : Cursors) :
    (answerAll src coerced ss cursors).length = ss.length := by
  induction ss generalizing cursors with
  | nil => rfl
  | cons s ss ih => rw [answerAll, List.length_cons, List.length_cons, ih]

/-- Each text is answered from some cursors. -/
theorem getElem?_answerAll (src : Source) (coerced : Bool) {ss : List String} {i : Nat} {s : String}
    (cursors : Cursors) (hs : ss[i]? = some s) :
    ∃ c, (answerAll src coerced ss cursors)[i]? = some (answerText src coerced s c).1 := by
  induction ss generalizing i cursors with
  | nil => simp at hs
  | cons q ss ih =>
    cases i with
    | zero =>
      have hq : q = s := by simpa using hs
      subst hq
      exact ⟨cursors, rfl⟩
    | succ i => exact ih _ hs

theorem answerAll_answered (ss : List String) :
    Answered src coerced ss ((answerAll src coerced ss []).map (·.response)) where
  count := by rw [List.length_map, length_answerAll]
  malformed := by
    intro i s hs hv
    obtain ⟨c, hc⟩ := getElem?_answerAll src coerced [] hs
    simp [hc, answerText, hv, rejection]
  undecodable := by
    intro i s v e hs hv he
    obtain ⟨c, hc⟩ := getElem?_answerAll src coerced [] hs
    simp [hc, answerText, hv, Session.handle, he]
  session := answerAll_session ss []
  oneLine := by
    intro r _ hn
    have := Json.write_printable r.toValue '\n' hn
    revert this
    decide

end

/-! ## Runs -/

open Run

section
variable {c : Config} {w : World}

theorem run_disk : disk.run w = .ok w.disk w := rfl

theorem run_note (e : Event) : (note e).run w = .ok () { w with events := w.events ++ [e] } := rfl

theorem run_answer (as : List Answer) :
    (answer as).run w = .ok () { w with
      out := w.out ++ as.map (·.response)
      events := w.events ++ as.flatMap fun a => [.requestReceived, a.event] } := rfl

theorem run_reject (f : Failure) :
    (reject f).run w = .error f { w with events := w.events ++ [.requestReceived] } := rfl

theorem resources_ready (hc : c.isReady w.disk = true) :
    (resources c).run w = .ok (c.folder w.disk).source w := by
  unfold resources
  simp only [EStateM.run_bind, run_disk, hc]
  rfl

/-- What a run over all lines does: the answers come out, and then it ends as the lines have it. -/
theorem serveInput_run (hc : c.isReady w.disk = true) (input : List UInt8) :
    ∃ w', (serveInput c input).run w = (if none ∈ texts input then .error .badInput w' else .ok () w') ∧
      w'.out = w.out ++
        (answerAll (c.folder w.disk).source c.coerceParams (asked (texts input)) []).map (·.response) := by
  have htexts : ((splitLines input).map fun line => decodeText? (chomp line)) = texts input := rfl
  unfold serveInput
  simp only [EStateM.run_bind, resources_ready hc, run_note, run_answer, answerLines_eq, htexts]
  by_cases h : none ∈ texts input
  · simp only [if_pos h, run_reject]
    exact ⟨_, rfl, rfl⟩
  · simp only [if_neg h, run_note]
    exact ⟨_, rfl, rfl⟩

end

end MockSchema.Program
