import Avionicpp.Nmea0183.SentenceStream
import Mathlib.Data.List.TakeWhile

/-! # Reference segmentation

What the framer returns for a stream, told by cutting the stream up: a start delimiter, a body as far as
the next `*` or line feed, two characters, and the end of the line. A body that does not fit is cut at
the buffer's end; behind such a body, and behind one that a line feed ends, the error is returned at
once and the same two characters and end of line are read all the same.
-/
namespace Avionicpp.Nmea0183
open Foundations Coroutine
set_option autoImplicit false

abbrev LineResult := Option (Except ErrorType TextView)

/-- Behind a body: the results, and where the search goes on. -/
def ending (sum : UInt8) (view : TextView) : List UInt8 → List LineResult × List UInt8
  | h1 :: h2 :: x :: y :: u =>
    if x ≠ ascii '\r' then
      ([none, none, some (.error (ErrorCode.protocolViolation.toInt, msgBadCrlf))], y :: u)
    else if y ≠ ascii '\n' then
      ([none, none, none, some (.error (ErrorCode.protocolViolation.toInt, msgBadCrlf))], u)
    else ([none, none, none, some (verdict sum view h1 h2)], u)
  | [_, _, x] =>
    if x ≠ ascii '\r' then
      ([none, none, some (.error (ErrorCode.protocolViolation.toInt, msgBadCrlf))], [])
    else ([none, none, none], [])
  | u => (List.replicate u.length none, [])

/-- The text as far as the next `*` or line feed. -/
def bodyText (u : List UInt8) : List UInt8 := u.takeWhile fun c => c ≠ ascii '*' ∧ c ≠ ascii '\n'

/-- The tokens of a body that is cut in front of `c`: the last one counts only if a comma ends it. -/
def cutView (b : List UInt8) (c : UInt8) : TextView :=
  viewOf (if c = ascii ',' then tokens b else (tokens b).dropLast)

/-- Behind a start delimiter. -/
def lineOf (N : ℕ) (u : List UInt8) : List LineResult × List UInt8 :=
  let b := (bodyText u).take N
  let quiet := List.replicate b.length none
  match u.drop b.length with
  | [] => (quiet, [])
  | c :: v =>
    let overrun := c ≠ ascii '*' ∧ c ≠ ascii '\n'
    let (results, rest) := ending (checksum b) (if overrun then cutView b c else viewOf (tokens b)) v
    let first :=
      if c = ascii '*' then none
      else if c = ascii '\n' then
        some (.error (ErrorCode.protocolViolation.toInt, msgProtocol))
      else some (.error (ErrorCode.bufferOverrun.toInt, msgOverrun))
    (quiet ++ first :: results, rest)

theorem ending_rest_length (sum : UInt8) (view : TextView) (u : List UInt8) :
    (ending sum view u).2.length ≤ u.length := by
  unfold ending
  split
  · split
    · simp only [List.length_cons]
      omega
    · split
      · simp only [List.length_cons]
        omega
      · simp only [List.length_cons]
        omega
  · split <;> exact Nat.zero_le _
  · exact Nat.zero_le _

theorem lineOf_rest_length (N : ℕ) (u : List UInt8) : (lineOf N u).2.length ≤ u.length := by
  unfold lineOf
  dsimp only
  split
  · exact Nat.zero_le _
  · rename_i c v hdrop
    have hlength := congrArg List.length hdrop
    rw [List.length_drop, List.length_cons] at hlength
    have hrest := ending_rest_length (checksum ((bodyText u).take N))
      (if c ≠ ascii '*' ∧ c ≠ ascii '\n' then cutView ((bodyText u).take N) c
        else viewOf (tokens ((bodyText u).take N))) v
    exact hrest.trans (by omega)

/-- The results for a stream, one for each byte. -/
def segmentation (N : ℕ) : List UInt8 → List LineResult
  | [] => []
  | c :: u =>
    if IsStart c then none :: ((lineOf N u).1 ++ segmentation N (lineOf N u).2)
    else none :: segmentation N u
termination_by u => u.length
decreasing_by
  · exact Nat.lt_succ_of_le (lineOf_rest_length N u)
  · exact Nat.lt_succ_self _

/-! ## The machine -/

section
variable (N : ℕ)

theorem ending_outputs (sum : UInt8) (view : TextView) (u : List UInt8) :
    (sentenceMachine N).outputs (.hex1 sum view) u =
      (ending sum view u).1 ++ (sentenceMachine N).outputs .searching (ending sum view u).2 := by
  have hcr (h1 h2 x : UInt8) : phaseStep N (.cr sum view h1 h2) x =
      if x = ascii '\r' then (.lf sum view h1 h2, none)
      else (.searching, some (.error (ErrorCode.protocolViolation.toInt, msgBadCrlf))) := rfl
  have hlf (h1 h2 y : UInt8) : phaseStep N (.lf sum view h1 h2) y =
      if y = ascii '\n' then (.searching, some (verdict sum view h1 h2))
      else (.searching, some (.error (ErrorCode.protocolViolation.toInt, msgBadCrlf))) := rfl
  have hbad (h1 h2 x : UInt8) (v : List UInt8) (hx : x ≠ ascii '\r') :
      (sentenceMachine N).outputs (.cr sum view h1 h2) (x :: v) =
        some (.error (ErrorCode.protocolViolation.toInt, msgBadCrlf)) ::
          (sentenceMachine N).outputs .searching v := by
    rw [Mealy.outputs_cons, sentenceMachine_step, hcr, if_neg hx]
  have hgood (h1 h2 x : UInt8) (v : List UInt8) (hx : x = ascii '\r') :
      (sentenceMachine N).outputs (.cr sum view h1 h2) (x :: v) =
        none :: (sentenceMachine N).outputs (.lf sum view h1 h2) v := by
    rw [Mealy.outputs_cons, sentenceMachine_step, hcr, if_pos hx]
  rcases u with _ | ⟨h1, _ | ⟨h2, _ | ⟨x, _ | ⟨y, v⟩⟩⟩⟩
  · rfl
  · rfl
  · rfl
  · show none :: none :: (sentenceMachine N).outputs (.cr sum view h1 h2) [x] = _
    rw [ending]
    by_cases hx : x = ascii '\r'
    · rw [hgood h1 h2 x [] hx, if_neg (not_not_intro hx)]
      rfl
    · rw [hbad h1 h2 x [] hx, if_pos hx]
      rfl
  · show none :: none :: (sentenceMachine N).outputs (.cr sum view h1 h2) (x :: y :: v) = _
    rw [ending]
    by_cases hx : x = ascii '\r'
    · rw [hgood h1 h2 x (y :: v) hx, if_neg (not_not_intro hx), Mealy.outputs_cons,
        sentenceMachine_step, hlf]
      by_cases hy : y = ascii '\n'
      · rw [if_pos hy, if_neg (not_not_intro hy)]
        rfl
      · rw [if_neg hy, if_pos hy]
        rfl
    · rw [hbad h1 h2 x (y :: v) hx, if_pos hx]
      rfl

theorem drop_of_append {x y z : List UInt8} (h : x ++ y = z) : z.drop x.length = y := by
  rw [← h, List.drop_left]

theorem bodyText_isBody (u : List UInt8) : BodyText (bodyText u) := by
  intro c hc
  simpa using List.mem_takeWhile_imp hc

/-- What stands behind a body ends it. -/
theorem bodyText_ends {u : List UInt8} {c : UInt8} {v : List UInt8}
    (h : u.drop (bodyText u).length = c :: v) : c = ascii '*' ∨ c = ascii '\n' := by
  have hsplit : bodyText u ++ u.dropWhile (fun c => c ≠ ascii '*' ∧ c ≠ ascii '\n') = u :=
    List.takeWhile_append_dropWhile
  have hdrop : u.dropWhile (fun c => c ≠ ascii '*' ∧ c ≠ ascii '\n') = c :: v := by
    rw [← drop_of_append hsplit]
    exact h
  have hhead := List.head?_dropWhile_not (fun c => decide (c ≠ ascii '*' ∧ c ≠ ascii '\n')) u
  rw [hdrop, List.head?_cons] at hhead
  have hnot := of_decide_eq_false hhead
  by_contra hother
  exact hnot (not_or.mp hother)

/-- The byte behind what was read of a body, and the phase in which the framer goes on. -/
theorem lineOf_step (u : List UInt8) {c : UInt8} {v : List UInt8}
    (h : u.drop ((bodyText u).take N).length = c :: v) :
    let b := (bodyText u).take N
    phaseStep N (.body b) c =
      (.hex1 (checksum b)
          (if c ≠ ascii '*' ∧ c ≠ ascii '\n' then cutView b c else viewOf (tokens b)),
        if c = ascii '*' then none
        else if c = ascii '\n' then some (.error (ErrorCode.protocolViolation.toInt, msgProtocol))
        else some (.error (ErrorCode.bufferOverrun.toInt, msgOverrun))) := by
  intro b
  rw [phaseStep, bodyStep]
  by_cases hstar : c = ascii '*'
  · rw [if_pos hstar, if_pos hstar, if_neg fun hne => hne.1 hstar]
  · by_cases hlf : c = ascii '\n'
    · rw [if_neg hstar, if_neg hstar, if_pos hlf, if_pos hlf, if_neg fun hne => hne.2 hlf]
    · have hfull : N ≤ b.length := by
        by_contra hroom
        have hall : b = bodyText u := by
          have hlength : b.length = min N (bodyText u).length := List.length_take
          exact List.take_of_length_le (by omega)
        have hends : u.drop (bodyText u).length = c :: v := by
          rw [← hall]
          exact h
        obtain hc | hc := bodyText_ends hends
        · exact hstar hc
        · exact hlf hc
      have hover : (if c ≠ ascii '*' ∧ c ≠ ascii '\n' then cutView b c else viewOf (tokens b)) =
          cutView b c := if_pos ⟨hstar, hlf⟩
      rw [if_neg hstar, if_neg hlf, if_pos hfull, hover, if_neg hstar, if_neg hlf]
      rfl

theorem lineOf_outputs (u : List UInt8) :
    (sentenceMachine N).outputs (.body []) u =
      (lineOf N u).1 ++ (sentenceMachine N).outputs .searching (lineOf N u).2 := by
  have hbody : BodyText ((bodyText u).take N) :=
    fun c hc => bodyText_isBody u c (List.mem_of_mem_take hc)
  have hfront : u = (bodyText u).take N ++ u.drop ((bodyText u).take N).length := by
    have hprefix : (bodyText u).take N <+: u :=
      (List.take_prefix N (bodyText u)).trans (List.takeWhile_prefix _)
    obtain ⟨rest, hrest⟩ := hprefix
    rw [drop_of_append hrest, hrest]
  obtain ⟨hrun, hout⟩ := body_run N [] ((bodyText u).take N) hbody (by simp)
  rw [List.nil_append] at hrun
  nth_rewrite 1 [hfront]
  rw [Mealy.outputs_append, hrun, hout, lineOf]
  dsimp only
  cases hnext : u.drop ((bodyText u).take N).length with
  | nil => rfl
  | cons c v =>
    rw [Mealy.outputs_cons, sentenceMachine_step, lineOf_step N u hnext, ending_outputs]
    simp only [List.append_assoc, List.cons_append]

theorem machine_segmentation (u : List UInt8) :
    (sentenceMachine N).outputs .searching u = segmentation N u := by
  induction hk : u.length using Nat.strong_induction_on generalizing u with
  | _ k ih =>
    cases u with
    | nil => rw [segmentation]; rfl
    | cons c u =>
      rw [List.length_cons] at hk
      rw [segmentation, Mealy.outputs_cons, sentenceMachine_step]
      by_cases hc : IsStart c
      · have hshort := lineOf_rest_length N u
        rw [if_pos hc, phaseStep_start N hc, lineOf_outputs, ih _ (by omega) _ rfl]
      · rw [if_neg hc, phaseStep_noise N hc, ih _ (by omega) _ rfl]

end

/-- **The framer is the reference segmentation**, for a buffer of any size and any stream: all that it
returns, views and errors, is told by cutting the stream up. -/
theorem framer_segmentation (buffer : Region UInt8) (u : List UInt8) :
    resultsAfter buffer [] u = segmentation buffer.size u := by
  rw [resultsAfter_eq]
  exact machine_segmentation buffer.size u

/-- A body that is cut short, and a delimiter that is taken for its checksum. -/
example : segmentation 1 (asciiText "$AB$3\r\n") =
    [none, none, some (.error (ErrorCode.bufferOverrun.toInt, msgOverrun)), none, none, none,
      some (.error (ErrorCode.invalidChecksumChar.toInt, msgInvChar))] := by
  rw [← machine_segmentation]
  decide

end Avionicpp.Nmea0183
