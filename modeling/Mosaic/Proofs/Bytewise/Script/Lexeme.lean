import Mosaic.Proofs.Bytewise.Position
import Mosaic.Proofs.Bytewise.Walk
import Mosaic.Proofs.Outcome
import Mosaic.Script.Parse

/-! The lexemes of a script measured in bytes. Strings and regular expressions are walked through
from byte to byte; a walk ends behind a quote, a slash or a flag, so at a whole character. -/
namespace Mosaic.Bytewise.Script

open Mosaic.Script Outcome

/-- In a regular expression a backslash hides the next byte, and brackets hide a slash. -/
def regexAct (inClass : Bool) (c : Char) : Act Bool :=
  if c = '\\' then .escape
  else if c = '\n' then .fail
  else if c = '[' then .pass true
  else if c = ']' then .pass false
  else if c = '/' ∧ !inClass then .close
  else .pass inClass

def flagRound (bytes : List UInt8) (_ : Unit) (pos : Nat) : Checked (Step Unit Nat) := do
  let b ← item bytes pos
  return if (asChar b).isAlpha then .go (pos + 1) () else .done pos

def flagsEnd (bytes : List UInt8) (pos : Nat) : Checked Nat :=
  loop bytes.length (flagRound bytes) (fun _ pos => .ok pos) () pos

def regexSize (bytes : List UInt8) : Checked (Option Nat) := do
  match ← walkBytes regexAct bytes false 0 with
  | some stop => return some (← flagsEnd bytes (stop + 1))
  | none => return none

theorem passesWide_regexAct : PassesWide regexAct := by
  intro state c wide
  rw [regexAct, if_neg (ne_of_wide wide (by decide)), if_neg (ne_of_wide wide (by decide)),
    if_neg (ne_of_wide wide (by decide)), if_neg (ne_of_wide wide (by decide)),
    if_neg fun both => ne_of_wide wide (by decide) both.1]

theorem regexAct_close {inClass : Bool} {c : Char} (h : regexAct inClass c = .close) :
    c = '/' := by
  rw [regexAct] at h
  split at h
  next => cases h
  next =>
    split at h
    next => cases h
    next =>
      split at h
      next => cases h
      next =>
        split at h
        next => cases h
        next =>
          split at h
          next both => exact both.1
          next => cases h

theorem isAlpha_small {c : Char} (h : c.isAlpha = true) : c.toNat ≤ 127 := by
  have last : 'Z'.val.toNat ≤ 127 ∧ 'z'.val.toNat ≤ 127 := by decide
  have either : (c.isUpper || c.isLower) = true := h
  obtain upper | lower := Bool.or_eq_true_iff.mp either
  · have between : 'A'.val ≤ c.val ∧ c.val ≤ 'Z'.val := of_decide_eq_true upper
    exact Nat.le_trans (UInt32.le_iff_toNat_le.mp between.2) last.1
  · have below : c.val ≤ 'z'.val := of_decide_eq_true (Bool.and_eq_true_iff.mp lower).2
    exact Nat.le_trans (UInt32.le_iff_toNat_le.mp below) last.2

theorem isAlpha_lead {c : Char} {lead : UInt8} {conts : List UInt8}
    (h : String.utf8EncodeChar c = lead :: conts) : (asChar lead).isAlpha = c.isAlpha := by
  by_cases small : lead.toNat < 128
  · rw [(eq_asChar_of_lt h small).1]
  · have wideLead : ¬ (asChar lead).isAlpha = true := by
      intro alpha
      have small := isAlpha_small alpha
      rw [toNat_asChar] at small
      omega
    have wide : ¬ c.isAlpha = true := fun alpha => small (lead_of_small (isAlpha_small alpha) h)
    rw [Bool.eq_false_iff.mpr wideLead, Bool.eq_false_iff.mpr wide]

theorem flagsEnd_eq {bytes : List UInt8} {pos : Nat} {s : List Char}
    (h : AtByte bytes pos (encode s)) :
    flagsEnd bytes pos = .ok (pos + Text.bytes (s.takeWhile Char.isAlpha)) := by
  induction s generalizing pos with
  | nil => exact loop_finish h.stop
  | cons c rest ih =>
    obtain ⟨lead, conts, hc, size, -, -⟩ := encodeChar_eq_cons c
    have later := h.char
    rw [encode_cons, hc, List.cons_append] at h
    rw [flagsEnd, List.takeWhile_cons]
    by_cases alpha : c.isAlpha = true
    · have one : c.utf8Size = 1 := Char.utf8Size_eq_one_iff.mpr (isAlpha_small alpha)
      have go : flagRound bytes () pos = .ok (.go (pos + 1) ()) := by
        rw [flagRound, h.item, ok_bind, isAlpha_lead hc, if_pos alpha]
        rfl
      rw [one] at later
      rw [loop_go h.lt go (Nat.lt_succ_self pos), if_pos alpha, Text.bytes_cons, one,
        ← Nat.add_assoc]
      exact ih later
    · have done : flagRound bytes () pos = .ok (.done pos) := by
        rw [flagRound, h.item, ok_bind, isAlpha_lead hc, if_neg alpha]
        rfl
      rw [loop_done h.lt done, if_neg alpha]
      rfl

theorem regexAct_escape {inClass : Bool} {c : Char} (h : regexAct inClass c = .escape) :
    c = '\\' := by
  rw [regexAct] at h
  split at h
  next same => exact same
  next =>
    split at h
    next => cases h
    next =>
      split at h
      next => cases h
      next =>
        split at h
        next => cases h
        next => split at h <;> cases h

theorem regexLength?_cons {inClass : Bool} {c : Char} (visible : regexAct inClass c ≠ .escape)
    (rest : List Char) :
    regexLength? inClass (c :: rest) =
      match regexAct inClass c with
      | .close => some ((rest.takeWhile Char.isAlpha).length + 1)
      | .pass next => (regexLength? next rest).map (· + 1)
      | _ => none := by
  have plain : c ≠ '\\' := by
    rintro rfl
    exact visible (if_pos rfl)
  rw [regexLength?, regexAct, if_neg plain]
  · split
    · rfl
    · split
      · rfl
      · split
        · rfl
        · split <;> rfl
  · intro d more escape
    exact absurd escape plain

theorem regexLength?_eq (inClass : Bool) (s : List Char) :
    regexLength? inClass s =
      (walkChars regexAct inClass s).map fun n =>
        n + 1 + ((s.drop (n + 1)).takeWhile Char.isAlpha).length := by
  fun_induction walkChars regexAct inClass s with
  | case1 inClass => cases inClass <;> rfl
  | case2 inClass c close =>
    rw [regexLength?_cons (by simp [close]), close]
    rfl
  | case3 inClass c open_ =>
    cases hact : regexAct inClass c with
    | escape =>
      obtain rfl := regexAct_escape hact
      cases inClass <;> rfl
    | close => exact absurd hact open_
    | fail =>
      rw [regexLength?_cons (by simp [hact]), hact]
      rfl
    | pass next =>
      rw [regexLength?_cons (by simp [hact]), hact]
      cases next <;> rfl
  | case4 inClass c d rest escape ih =>
    obtain rfl := regexAct_escape escape
    rw [regexLength?, ih, Option.map_map, Option.map_map]
    congr 1
    funext n
    simp only [Function.comp, List.drop_succ_cons]
    omega
  | case5 inClass c d rest next pass ih =>
    rw [regexLength?_cons (by simp [pass]), pass]
    dsimp only
    rw [ih, Option.map_map, Option.map_map]
    congr 1
    funext n
    simp only [Function.comp, List.drop_succ_cons]
    omega
  | case6 inClass c d rest close =>
    rw [regexLength?_cons (by simp [close]), close]
    simp only [Option.map_some, List.drop_succ_cons, List.drop_zero, Nat.zero_add, Nat.add_comm]
  | case7 inClass c d rest fail =>
    rw [regexLength?_cons (by simp [fail]), fail]
    rfl

theorem regexSize_eq (s : List Char) :
    regexSize (encode s) =
      .ok ((regexLength? false s).map fun n => Text.bytes (s.take n)) := by
  have start : AtByte (encode s) 0 (encode s) := ⟨[], rfl, rfl⟩
  rw [regexSize, walkBytes_eq passesWide_regexAct false start, regexLength?_eq]
  cases hw : walkChars regexAct false s with
  | none => rfl
  | some n =>
    obtain ⟨state, c, found, close⟩ := walkChars_closes hw
    obtain rfl := regexAct_close close
    have one : '/'.utf8Size = 1 := by decide
    have stop : Text.bytes (s.take n) + 1 = Text.bytes (s.take (n + 1)) := by
      rw [List.take_add_one, found, Text.bytes_append]
      exact congrArg (_ + ·) one.symm
    have behind : AtByte (encode s) (Text.bytes (s.take n) + 1) (encode (s.drop (n + 1))) := by
      have at_ := ((At.start s).drop (n + 1)).bytes
      rwa [Nat.zero_add, ← stop] at at_
    dsimp only [Option.map_some]
    rw [ok_bind, Nat.zero_add]
    dsimp only
    rw [flagsEnd_eq behind, stop, ok_bind]
    refine congrArg (fun size => Except.ok (some size)) ?_
    rw [List.take_add (i := n + 1), Text.bytes_append, Text.take_length_takeWhile]

end Mosaic.Bytewise.Script
