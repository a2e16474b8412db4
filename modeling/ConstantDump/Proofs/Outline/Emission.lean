import ConstantDump.Outline.Fragment

/-!
Output to a device against the text of its fragments. A device takes writes until it refuses one,
and nothing is written after that.

* `Emission.emitAll_of_takes`, `Emission.emitAll_of_refused`: what is left after either;
* `Fragment.flatten_writes`: the writes of fragments are the bytes of their text, cut;
* `Emission.emitAll_finish`: a device ends with the bytes of the whole text and is flushed, or with
  those of the writes before the first one refused and is not.
-/

namespace ConstantDump

variable {σ ε : Type}

namespace Device

/-- The device takes writes, one after another. -/
inductive Takes (device : Device σ ε) : List (List UInt8) → σ → σ → Prop
  | nil (s : σ) : Takes device [] s s
  | cons {bytes : List UInt8} {writes : List (List UInt8)} {s t u : σ}
      (first : device.write bytes s = (t, none)) (later : Takes device writes t u) :
      Takes device (bytes :: writes) s u

/-- The device takes all bytes of a write or none of them. -/
structure WritesWhole (device : Device σ ε) (contents : σ → List UInt8) : Prop where
  taken : ∀ bytes s t, device.write bytes s = (t, none) → contents t = contents s ++ bytes
  refused : ∀ bytes s t error, device.write bytes s = (t, some error) → contents t = contents s

variable {device : Device σ ε} {writes : List (List UInt8)} {s t : σ}

theorem Takes.contents_eq {contents : σ → List UInt8} (h : device.Takes writes s t)
    (whole : device.WritesWhole contents) : contents t = contents s ++ writes.flatten := by
  induction h with
  | nil s => simp
  | cons first later ih => rw [ih, whole.taken _ _ _ first, List.append_assoc, List.flatten_cons]

/-- A device takes all writes, or there is a first one that it refuses. -/
theorem takes_or_refuses (device : Device σ ε) (writes : List (List UInt8)) (s : σ) :
    (∃ t, device.Takes writes s t) ∨
      ∃ before refused rest t u error, writes = before ++ refused :: rest ∧
        device.Takes before s t ∧ device.write refused t = (u, some error) := by
  induction writes generalizing s with
  | nil => exact .inl ⟨s, .nil s⟩
  | cons bytes writes ih =>
    rcases first : device.write bytes s with ⟨t, error | error⟩
    · rcases ih t with ⟨u, later⟩ | ⟨before, refused, rest, u, v, error, rfl, later, failure⟩
      · exact .inl ⟨u, .cons first later⟩
      · exact .inr ⟨bytes :: before, refused, rest, u, v, error, rfl, .cons first later, failure⟩
    · exact .inr ⟨[], bytes, writes, s, t, error, rfl, .nil s, first⟩

end Device

namespace Fragment

/-- The writes of a fragment are the bytes of its text, cut. -/
theorem flatten_writes (fragment : Fragment) :
    fragment.writes.flatten = Utf8.encode fragment.toText := by
  cases fragment with
  | text t =>
    by_cases empty : t = []
    · simp [writes, toText, empty]
    · simp [writes, toText, empty]
  | newline => simp [writes, toText]
  | indent columns =>
    induction columns with
    | zero => rfl
    | succ columns ih =>
      have encoded : Utf8.encode (' ' :: List.replicate columns ' ') =
          Utf8.encode [' '] ++ Utf8.encode (List.replicate columns ' ') :=
        Utf8.encode_append [' '] _
      simp only [writes, toText, List.replicate_succ, List.flatten_cons] at ih ⊢
      rw [encoded, ih]

theorem flatten_flatMap_writes (fragments : List Fragment) :
    (fragments.flatMap writes).flatten = Utf8.encode (textOf fragments) := by
  induction fragments with
  | nil => rfl
  | cons fragment rest ih =>
    have text : textOf (fragment :: rest) = fragment.toText ++ textOf rest := rfl
    rw [List.flatMap_cons, List.flatten_append, flatten_writes, ih, text, Utf8.encode_append]

end Fragment

namespace Emission

variable {device : Device σ ε} {writes before rest : List (List UInt8)} {s t u : σ} {error : ε}

theorem emitAll_eq (device : Device σ ε) (emission : Emission σ ε) (fragments : List Fragment) :
    emission.emitAll device fragments =
      (fragments.flatMap Fragment.writes).foldl (write device) emission :=
  List.foldl_flatMap.symm

theorem foldl_write_of_takes (h : device.Takes writes s t) :
    writes.foldl (write device) (new s) = new t := by
  induction h with
  | nil s => rfl
  | @cons bytes writes s t u first later ih =>
    have step : write device (new s) bytes = new t := by simp [write, new, first]
    rw [List.foldl_cons, step, ih]

/-- After an error nothing is written. -/
theorem foldl_write_of_error (device : Device σ ε) (writes : List (List UInt8)) (s : σ)
    (error : ε) :
    writes.foldl (write device) ⟨s, some error⟩ = ⟨s, some error⟩ := by
  induction writes with
  | nil => rfl
  | cons bytes writes ih => exact ih

variable {fragments : List Fragment}

theorem emitAll_of_takes (h : device.Takes (fragments.flatMap Fragment.writes) s t) :
    (new s).emitAll device fragments = ⟨t, none⟩ := by
  rw [emitAll_eq, foldl_write_of_takes h]
  rfl

theorem emitAll_of_refused {refused : List UInt8}
    (split : fragments.flatMap Fragment.writes = before ++ refused :: rest)
    (taken : device.Takes before s t) (failure : device.write refused t = (u, some error)) :
    (new s).emitAll device fragments = ⟨u, some error⟩ := by
  have step : write device (new t) refused = ⟨u, some error⟩ := by simp [write, new, failure]
  rw [emitAll_eq, split, List.foldl_append, foldl_write_of_takes taken, List.foldl_cons, step,
    foldl_write_of_error]

/-- Either no write fails: then the device has the bytes of the whole text, and is flushed at the
end. Or there is a first write that fails: then the device is left as that write leaves it, it has
the bytes of the writes before and nothing else of the text, it is not flushed, and the error is
reported. -/
theorem emitAll_finish {contents : σ → List UInt8} (whole : device.WritesWhole contents) (start : σ)
    (fragments : List Fragment) :
    let writes := fragments.flatMap Fragment.writes
    let text := Fragment.textOf fragments
    let emission := (new start).emitAll device fragments
    (∀ t, device.Takes writes start t →
      emission.state = t ∧ contents t = contents start ++ Utf8.encode text ∧
      emission.close device = device.flush t ∧
      emission.finish device =
        match device.flush t with
        | (flushed, none) => .ok flushed
        | (_, some error) => .error error) ∧
    (∀ before refused rest t u error, writes = before ++ refused :: rest →
      device.Takes before start t → device.write refused t = (u, some error) →
      emission.state = u ∧ contents u = contents start ++ before.flatten ∧
      before.flatten ++ (refused :: rest).flatten = Utf8.encode text ∧
      emission.close device = (u, some error) ∧ emission.finish device = .error error) ∧
    ((∃ t, device.Takes writes start t) ∨
      ∃ before refused rest t u error, writes = before ++ refused :: rest ∧
        device.Takes before start t ∧ device.write refused t = (u, some error)) := by
  intro writes text emission
  refine ⟨fun t taken => ?_, fun before refused rest t u error split taken failure => ?_,
    device.takes_or_refuses writes start⟩
  · have final : emission = ⟨t, none⟩ := emitAll_of_takes taken
    have bytes := taken.contents_eq whole
    rw [Fragment.flatten_flatMap_writes] at bytes
    rw [final]
    exact ⟨rfl, bytes, rfl, rfl⟩
  · have final : emission = ⟨u, some error⟩ := emitAll_of_refused split taken failure
    have bytes := whole.refused _ _ _ _ failure
    rw [taken.contents_eq whole] at bytes
    have all := Fragment.flatten_flatMap_writes fragments
    rw [show fragments.flatMap Fragment.writes = before ++ refused :: rest from split,
      List.flatten_append] at all
    rw [final]
    exact ⟨rfl, bytes, all, rfl, rfl⟩

/-- Keeps all bytes but those of one write, which it refuses; the state counts the writes. -/
def refusesOnce (failing : Nat) : Device (Nat × List UInt8) Text where
  write bytes s :=
    if s.1 = failing then ((s.1 + 1, s.2), some "full".toList)
    else ((s.1 + 1, s.2 ++ bytes), none)
  flush s := (s, none)

theorem writesWhole_refusesOnce (failing : Nat) : (refusesOnce failing).WritesWhole (·.2) where
  taken bytes s t h := by
    simp only [refusesOnce] at h
    split at h <;> cases h
    rfl
  refused bytes s t error h := by
    simp only [refusesOnce] at h
    split at h <;> cases h
    rfl

/-- An indent that stops in the middle: the text after it is not written, though the device would
take it again. -/
theorem emitAll_finish_indent :
    (refusesOnce 2).WritesWhole (·.2) ∧
    ((refusesOnce 2).write (Utf8.encode ['b']) (3, Utf8.encode ['a', ' '])).2 = none ∧
    let emission := (new (0, [])).emitAll (refusesOnce 2) [.text ['a'], .indent 2, .text ['b']]
    emission.state = (3, Utf8.encode ['a', ' ']) ∧
      emission.finish (refusesOnce 2) = .error "full".toList := by
  have whole := writesWhole_refusesOnce 2
  obtain ⟨-, refused, -⟩ := emitAll_finish whole (0, []) [.text ['a'], .indent 2, .text ['b']]
  obtain ⟨state, -, -, -, finish⟩ := refused [Utf8.encode ['a'], Utf8.encode [' ']]
    (Utf8.encode [' ']) [Utf8.encode ['b']] (2, Utf8.encode ['a', ' '])
    (3, Utf8.encode ['a', ' ']) "full".toList rfl (.cons rfl (.cons rfl (.nil _))) rfl
  exact ⟨whole, rfl, state, finish⟩

end Emission

end ConstantDump
