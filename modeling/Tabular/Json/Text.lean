import Tabular.Json.Escape
import Tabular.Json.Fault

/-!
# Tabular.Json.Text — reading the inside of JSON texts

`readText` reads a text after its opening quote, up to the closing one.  `skipText` goes over a text
whose content does not matter: it asks for known escapes, but not for whole surrogate pairs.
-/

namespace Tabular.Json

/-- Reads the code unit of four hexadecimal digits. -/
def readUnit (cs : List Char) : Except Fault (Nat × List Char) :=
  match cs with
  | a :: b :: c :: d :: rest =>
    match Hex.toNat? [a, b, c, d] with
    | some n => .ok (n, rest)
    | none => .error ⟨.badEscape, cs, 4⟩
  | _ =>
    if (String.ofList cs).utf8ByteSize < 4 then stopBefore (.unfinished .text) []
    else .error ⟨.badEscape, cs, 4⟩

/-- Reads the second half of a surrogate pair, an escape of its own, and joins it to the first. -/
def readPair (high : Nat) : List Char → Except Fault (Char × List Char)
  | [] => stopBefore (.unfinished .text) []
  | [c] => if c = '\\' then stopBefore (.unfinished .text) [] else stopAt .halfPair [c]
  | c :: u :: rest =>
    if c ≠ '\\' then stopAt .halfPair (c :: u :: rest)
    else if u ≠ 'u' then stopAt .halfPair (u :: rest)
    else
      match readUnit rest with
      | .error fault => .error fault
      | .ok (low, rest) =>
        if isLowSurrogate low then .ok (ofPair high low, rest) else stopBefore .loneSurrogate rest

/-- Reads the character of a code unit, or of two that are a surrogate pair. -/
def readUnits (cs : List Char) : Except Fault (Char × List Char) :=
  match readUnit cs with
  | .error fault => .error fault
  | .ok (n, rest) =>
    if isLowSurrogate n then stopBefore .loneSurrogate rest
    else if isHighSurrogate n then readPair n rest
    else .ok (Char.ofNat n, rest)

/-- Reads an escape after its backslash. -/
def readEscape : List Char → Except Fault (Char × List Char)
  | [] => stopBefore (.unfinished .text) []
  | e :: rest =>
    if e = 'u' then readUnits rest
    else
      match unescape? e with
      | some c => .ok (c, rest)
      | none => stopAt .badEscape (e :: rest)

/-- Goes over an escape after its backslash. -/
def skipEscape : List Char → Except Fault (List Char)
  | [] => stopBefore (.unfinished .text) []
  | e :: rest =>
    if e = 'u' then (readUnit rest).map Prod.snd
    else if (unescape? e).isSome then .ok rest
    else stopAt .badEscape (e :: rest)

theorem length_of_readUnit {cs rest : List Char} {n : Nat} (h : readUnit cs = .ok (n, rest)) :
    rest.length < cs.length := by
  unfold readUnit at h
  split at h
  · split at h
    · cases h
      simp only [List.length_cons]
      omega
    · cases h
  · split at h <;> cases h

theorem length_of_readPair {cs rest : List Char} {high : Nat} {c : Char}
    (h : readPair high cs = .ok (c, rest)) : rest.length < cs.length := by
  unfold readPair at h
  split at h
  · cases h
  · split at h <;> cases h
  · split at h
    · cases h
    · split at h
      · cases h
      · split at h
        · cases h
        · next hu =>
          have := length_of_readUnit hu
          split at h
          · simp only [Except.ok.injEq, Prod.mk.injEq] at h
            simp only [List.length_cons, ← h.2]
            omega
          · cases h

theorem length_of_readUnits {cs rest : List Char} {c : Char} (h : readUnits cs = .ok (c, rest)) :
    rest.length < cs.length := by
  unfold readUnits at h
  split at h
  · cases h
  · next hu =>
    have := length_of_readUnit hu
    split at h
    · cases h
    · split at h
      · have := length_of_readPair h
        omega
      · cases h
        assumption

theorem length_of_readEscape {cs rest : List Char} {c : Char} (h : readEscape cs = .ok (c, rest)) :
    rest.length < cs.length := by
  unfold readEscape at h
  split at h
  · cases h
  · split at h
    · have := length_of_readUnits h
      simp only [List.length_cons]
      omega
    · split at h
      · cases h
        simp
      · cases h

theorem length_of_skipEscape {cs rest : List Char} (h : skipEscape cs = .ok rest) :
    rest.length < cs.length := by
  unfold skipEscape at h
  split at h
  · cases h
  · next r =>
    split at h
    · cases hu : readUnit r with
      | error f => rw [hu] at h; cases h
      | ok found =>
        rw [hu] at h
        have := length_of_readUnit hu
        cases h
        simp only [List.length_cons]
        omega
    · split at h
      · cases h
        simp
      · cases h

/-- Reads a text after its opening quote: its characters, and what follows the closing quote. -/
def readText : List Char → Except Fault (List Char × List Char)
  | [] => stopBefore (.unfinished .text) []
  | c :: rest =>
    if c = '"' then .ok ([], rest)
    else if c = '\\' then
      match h : readEscape rest with
      | .error fault => .error fault
      | .ok (e, after) => do
        have := length_of_readEscape h
        let (more, after) ← readText after
        return (e :: more, after)
    else if c < ' ' then stopBefore .controlCharacter rest
    else do
      let (more, after) ← readText rest
      return (c :: more, after)
termination_by cs => cs.length
decreasing_by all_goals simp_wf <;> omega

/-- Goes over a text after its opening quote: what follows the closing quote. -/
def skipText : List Char → Except Fault (List Char)
  | [] => stopBefore (.unfinished .text) []
  | c :: rest =>
    if c = '"' then .ok rest
    else if c = '\\' then
      match h : skipEscape rest with
      | .error fault => .error fault
      | .ok after =>
        have := length_of_skipEscape h
        skipText after
    else if c < ' ' then stopBefore .controlCharacter (c :: rest)
    else skipText rest
termination_by cs => cs.length
decreasing_by all_goals simp_wf <;> omega

end Tabular.Json
