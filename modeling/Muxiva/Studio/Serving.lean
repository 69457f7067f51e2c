import Muxiva.Studio.Request

/-! A request is what its bytes say: how the stream is cut into reads does not matter, more bytes
change nothing once it is complete, and without the token only the files compiled in are served. -/
set_option linter.all false
namespace Muxiva.Studio

open Framing

/-- What a request of these bytes is, where they decide it. -/
def decideRequest (bytes : List UInt8) : Option (Except RequestError HttpRequest) :=
  match endOf headerMark bytes with
  | none => if maxHeaderBytes < bytes.length then some (.error headersTooLarge) else none
  | some headerEnd =>
    if maxHeaderBytes < headerEnd then some (.error headersTooLarge)
    else
      match parseHead (bytes.take headerEnd) with
      | .error e => some (.error e)
      | .ok head =>
        if bytes.length < headerEnd + head.contentLength then none
        else some (head.withBody ((bytes.take (headerEnd + head.contentLength)).drop headerEnd))

/-- The error of a stream that ends with an undecided request. -/
def endedEarly (ending : Ending) (bytes : List UInt8) : Except RequestError HttpRequest :=
  match endOf headerMark bytes, ending with
  | none, .eof => .error (badRequest "incomplete request")
  | none, .failed => .error (badRequest "failed to read request")
  | some _, .eof => .error (badRequest "incomplete request body")
  | some _, .failed => .error (badRequest "failed to read request body")

/-- The outcome of a whole stream. -/
def requestOf (ending : Ending) (bytes : List UInt8) : Except RequestError HttpRequest :=
  (decideRequest bytes).getD (endedEarly ending bytes)

theorem take_append_of_le {bytes : List UInt8} {n : ℕ} (h : n ≤ bytes.length) (more : List UInt8) :
    (bytes ++ more).take n = bytes.take n := by
  rw [List.take_append_of_le_length h]

/-- What is decided behind a header that is there. -/
theorem decideRequest_eq {bytes : List UInt8} {headerEnd : ℕ}
    (hend : endOf headerMark bytes = some headerEnd) (hsmall : ¬maxHeaderBytes < headerEnd) :
    decideRequest bytes =
      match parseHead (bytes.take headerEnd) with
      | .error e => some (.error e)
      | .ok head =>
        if bytes.length < headerEnd + head.contentLength then none
        else
          some (head.withBody ((bytes.take (headerEnd + head.contentLength)).drop headerEnd)) := by
  unfold decideRequest
  rw [hend]
  exact if_neg hsmall

theorem decideRequest_stable : Stable decideRequest := by
  intro bytes more r h
  unfold decideRequest at h ⊢
  have hmark : headerMark ≠ [] := by decide
  cases hend : endOf headerMark bytes with
  | none =>
    rw [hend] at h
    simp only at h
    split_ifs at h with hlong
    cases h
    cases hmore : endOf headerMark (bytes ++ more) with
    | none =>
      simp only [List.length_append]
      rw [if_pos (by omega)]
    | some headerEnd =>
      -- the mark is not in the first bytes, so it ends behind them
      have hlate : bytes.length < headerEnd := by
        by_contra hearly
        rw [endOf_of_append hmore (by omega) hmark] at hend
        cases hend
      simp only
      rw [if_pos (by omega)]
  | some headerEnd =>
    have hle := endOf_le hend
    rw [hend] at h
    rw [endOf_append hend]
    simp only at h ⊢
    split_ifs at h ⊢ with hlong
    · exact h
    · rw [take_append_of_le hle]
      cases hhead : parseHead (bytes.take headerEnd) with
      | error e =>
        rw [hhead] at h
        exact h
      | ok head =>
        rw [hhead] at h
        simp only at h ⊢
        split_ifs at h with hshort
        rw [if_neg (by rw [List.length_append]; omega), take_append_of_le (by omega)]
        exact h

section Loops

variable {ending : Ending} {bytes : List UInt8} {headerEnd : ℕ} {head : Head}

/-- The second loop, once the header is there. -/
theorem readBody_eq (hend : endOf headerMark bytes = some headerEnd)
    (hsmall : ¬maxHeaderBytes < headerEnd) (hhead : parseHead (bytes.take headerEnd) = .ok head)
    (hopen : bytes.length < headerEnd + head.contentLength) (pieces : List (List UInt8)) :
    (match readBody ending (headerEnd + head.contentLength) bytes pieces with
      | .error e => .error e
      | .ok bytes =>
        head.withBody ((bytes.take (headerEnd + head.contentLength)).drop headerEnd)) =
      readUntil decideRequest (endedEarly ending) bytes pieces := by
  induction pieces generalizing bytes with
  | nil =>
    unfold readBody readUntil endedEarly
    rw [if_neg (by omega), hend]
    cases ending <;> rfl
  | cons piece pieces ih =>
    have hle := endOf_le hend
    have hend' := endOf_append hend piece
    have hhead' : parseHead ((bytes ++ piece).take headerEnd) = .ok head := by
      rw [take_append_of_le hle, hhead]
    unfold readBody readUntil
    rw [if_neg (by omega), decideRequest_eq hend' hsmall, hhead']
    simp only
    split_ifs with hshort
    · rw [List.take_of_length_le (by omega)]
      exact ih hend' hhead' hshort
    · have hfull : headerEnd + head.contentLength ≤
          ((bytes ++ piece).take (headerEnd + head.contentLength)).length := by
        rw [List.length_take]
        omega
      have hdone : readBody ending (headerEnd + head.contentLength)
          ((bytes ++ piece).take (headerEnd + head.contentLength)) pieces =
          .ok ((bytes ++ piece).take (headerEnd + head.contentLength)) := by
        unfold readBody
        cases pieces <;> simp only [if_pos hfull]
      rw [hdone]
      simp only [List.take_take, Nat.min_self]

/-- `read_request` from its first loop on. -/
def readFrom (ending : Ending) (bytes : List UInt8) (pieces : List (List UInt8)) :
    Except RequestError HttpRequest :=
  match readHeader ending bytes pieces with
  | .error e => .error e
  | .ok (bytes, headerEnd, pieces) =>
    match parseHead (bytes.take headerEnd) with
    | .error e => .error e
    | .ok head =>
      match readBody ending (headerEnd + head.contentLength) bytes pieces with
      | .error e => .error e
      | .ok bytes => head.withBody ((bytes.take (headerEnd + head.contentLength)).drop headerEnd)

theorem readFrom_eq (hopen : endOf headerMark bytes = none) (pieces : List (List UInt8)) :
    readFrom ending bytes pieces =
      readUntil decideRequest (endedEarly ending) bytes pieces := by
  induction pieces generalizing bytes with
  | nil =>
    unfold readFrom readHeader readUntil endedEarly
    rw [hopen]
    cases ending <;> rfl
  | cons piece pieces ih =>
    unfold readFrom readHeader readUntil
    simp only
    cases hend : endOf headerMark (bytes ++ piece) with
    | none =>
      have hdecide : decideRequest (bytes ++ piece) =
          if maxHeaderBytes < (bytes ++ piece).length then some (.error headersTooLarge)
          else none := by
        unfold decideRequest
        rw [hend]
      rw [hdecide]
      simp only
      split_ifs with hlong
      · rfl
      · exact ih hend
    | some headerEnd =>
      simp only
      by_cases hlong : maxHeaderBytes < headerEnd
      · have hdecide : decideRequest (bytes ++ piece) = some (.error headersTooLarge) := by
          unfold decideRequest
          rw [hend]
          simp only
          rw [if_pos hlong]
        rw [if_pos hlong, hdecide]
      · rw [if_neg hlong]
        simp only
        have hdecide := decideRequest_eq hend hlong
        cases hhead : parseHead ((bytes ++ piece).take headerEnd) with
        | error e =>
          rw [hhead] at hdecide
          rw [hdecide]
        | ok head =>
          rw [hhead] at hdecide
          simp only at hdecide ⊢
          by_cases hshort : (bytes ++ piece).length < headerEnd + head.contentLength
          · rw [hdecide, if_pos hshort]
            exact readBody_eq hend hlong hhead hshort pieces
          · have hdone : readBody ending (headerEnd + head.contentLength) (bytes ++ piece) pieces =
                .ok (bytes ++ piece) := by
              unfold readBody
              cases pieces <;> simp only [if_pos (not_lt.mp hshort)]
            rw [hdecide, if_neg hshort, hdone]

end Loops

/-- `read_request` gives what the bytes of the stream say. -/
theorem readRequest_eq (ending : Ending) (pieces : List (List UInt8)) :
    readRequest ending pieces = requestOf ending pieces.flatten := by
  have hfrom : readRequest ending pieces = readFrom ending [] pieces := rfl
  have hnone : decideRequest [] = none := by decide
  rw [hfrom, readFrom_eq (by decide), readUntil_eq decideRequest_stable hnone]
  rfl

/-- A request that is accepted, at the front of the stream. -/
structure Accepted (bytes : List UInt8) (r : HttpRequest) : Prop where
  named : r.method ≠ [] ∧ r.path ≠ [] ∧ '?' ∉ r.path
  framed : ∃ header rest, bytes = header ++ Utf8.bytes r.body ++ rest ∧
    header.length ≤ maxHeaderBytes ∧ endOf headerMark header = some header.length
  small : (Utf8.bytes r.body).length ≤ maxDocumentBytes

theorem parseHead_spec {header : List UInt8} {head : Head} (h : parseHead header = .ok head) :
    (head.method ≠ [] ∧ head.path ≠ [] ∧ '?' ∉ head.path) ∧
      head.contentLength ≤ maxDocumentBytes := by
  unfold parseHead at h
  split at h
  · cases h
  · simp only at h
    split_ifs at h with hline
    split at h
    · cases h
    · split_ifs at h with hlarge
      cases h
      rw [not_or] at hline
      refine ⟨⟨hline.1, hline.2, fun hmem => ?_⟩, not_lt.mp hlarge⟩
      have hnot := List.mem_takeWhile_imp hmem
      simp at hnot

theorem bytes_of_decode {bs : List UInt8} {s : String} (h : Utf8.decode bs = some s) :
    Utf8.bytes s = bs := by
  unfold Utf8.decode String.fromUTF8? at h
  split_ifs at h
  cases h
  rfl

theorem withBody_spec {head : Head} {body : List UInt8} {r : HttpRequest}
    (h : head.withBody body = .ok r) :
    r.method = head.method ∧ r.path = head.path ∧ Utf8.bytes r.body = body := by
  unfold Head.withBody at h
  split at h
  · cases h
  · next s hdecode =>
    cases h
    exact ⟨rfl, rfl, bytes_of_decode hdecode⟩

theorem accepted_of_decide {bytes : List UInt8} {r : HttpRequest}
    (h : decideRequest bytes = some (.ok r)) : Accepted bytes r := by
  cases hend : endOf headerMark bytes with
  | none =>
    unfold decideRequest at h
    rw [hend] at h
    simp only at h
    split_ifs at h
    cases h
  | some headerEnd =>
    have hle := endOf_le hend
    by_cases hlong : maxHeaderBytes < headerEnd
    · unfold decideRequest at h
      rw [hend] at h
      simp only at h
      rw [if_pos hlong] at h
      cases h
    rw [decideRequest_eq hend hlong] at h
    cases hhead : parseHead (bytes.take headerEnd) with
    | error e =>
      rw [hhead] at h
      cases h
    | ok head =>
      rw [hhead] at h
      simp only at h
      split_ifs at h with hshort
      obtain ⟨hnamed, hlarge⟩ := parseHead_spec hhead
      obtain ⟨hmethod, hpath, hbody⟩ := withBody_spec (Option.some.inj h)
      have hlength : (bytes.take headerEnd).length = headerEnd := by
        rw [List.length_take]
        omega
      refine ⟨by rw [hmethod, hpath]; exact hnamed, ?_, ?_⟩
      · refine ⟨bytes.take headerEnd, bytes.drop (headerEnd + head.contentLength), ?_, ?_, ?_⟩
        · rw [hbody, List.drop_take, Nat.add_sub_cancel_left, ← List.take_add, List.take_append_drop]
        · omega
        · have hfront : bytes = bytes.take headerEnd ++ bytes.drop headerEnd :=
            (List.take_append_drop _ _).symm
          rw [hfront] at hend
          rw [hlength]
          exact endOf_of_append hend (by omega) (by decide)
      · rw [hbody, List.length_drop, List.length_take]
        omega

/-- The request carries the token. -/
def Authorized (token : Text) (r : HttpRequest) : Prop :=
  r.authorization = some ("Bearer ".toList ++ token)

/-- Without the token nothing but the compiled-in files matters. -/
theorem respond_congr {b b' : Backend} (hasset : b.asset = b'.asset) {token : Text}
    {r : HttpRequest} (h : ¬Authorized token r) : respond b token r = respond b' token r := by
  unfold Authorized at h
  unfold respond route
  simp only [h, hasset, decide_false, false_and, if_false, Bool.false_eq_true]

/-- A request cut in the middle of its mark, with a body and a further byte. -/
example : readRequest .eof [Utf8.bytes "PUT /a?b HTTP/1.1\r\nContent-length: 2\r\n\r",
    Utf8.bytes "\no", Utf8.bytes "k!"] =
      .ok ⟨"PUT".toList, "/a".toList, none, "ok"⟩ := by
  decide +kernel

end Muxiva.Studio
