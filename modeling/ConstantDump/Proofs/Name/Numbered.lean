import ConstantDump.Proofs.Name.Marker
import Mathlib.Data.List.DropRight

/-!
Names with a number behind them, and where a scope stores them. Main statement,
`path_numbered`: a numbered name whose markers go without a trace is stored in the scope that
the enclosing part of the name stands for on its own, under its last component. Names without
a marker are such names, `Traceless.of_unmarked`.
-/

namespace ConstantDump

namespace Text

theorem not_mem_ofNat {c : Char} (h : c.isDigit = false) (n : Nat) : c ∉ ofNat n := by
  intro hc
  rw [Nat.isDigit_of_mem_toDigits (by decide) (by decide) hc] at h
  cases h

theorem ofNat_ne_nil (n : Nat) : ofNat n ≠ [] := Nat.toDigits_ne_nil

theorem ofNat_injective {m n : Nat} (h : ofNat m = ofNat n) : m = n := by
  have same := congrArg (fun digits => Nat.ofDigitChars 10 digits 0) h
  simpa [ofNat] using same

end Text

namespace Name

def numbered (name : Text) (n : Nat) : Text := name ++ '\x60' :: Text.ofNat n

/-- A numbered name tells its name and its number. -/
theorem numbered_injective {name other : Text} {m n : Nat}
    (h : numbered name m = numbered other n) : name = other ∧ m = n := by
  have tick (k : Nat) : '\x60' ∉ Text.ofNat k := Text.not_mem_ofNat (by decide) k
  rcases List.append_eq_append_iff.1 h with ⟨x, hx, hd⟩ | ⟨x, hx, hd⟩
  · cases x with
    | nil => exact ⟨by simpa using hx.symm, Text.ofNat_injective (by simpa using hd)⟩
    | cons c x =>
      obtain ⟨-, hd⟩ := List.cons.inj hd
      exact absurd (by rw [hd]; simp) (tick m)
  · cases x with
    | nil => exact ⟨by simpa using hx, Text.ofNat_injective (by simpa using hd.symm)⟩
    | cons c x =>
      obtain ⟨-, hd⟩ := List.cons.inj hd
      exact absurd (by rw [hd]; simp) (tick n)

/-! ## Where no marker lies across a cut -/

theorem noneAcross_of_not_mem {p : Text} {c : Char} (hc : c ∉ p) (u w : Text) :
    Text.NoneAcross p u (c :: w) := by
  rintro x y rfl - hy
  refine .inr ?_
  cases y with
  | nil => rfl
  | cons d y =>
    obtain ⟨rfl, -⟩ := List.cons_prefix_cons.1 hy
    exact absurd (by simp) hc

/-- The part of a marker before a cut inside it, by its length. -/
theorem exists_take_of_elided {x y : Text} (h : elided = x ++ y) (hy : y ≠ []) :
    ∃ n < 23, x = elided.take n ∧ y = elided.drop n := by
  refine ⟨x.length, ?_, by rw [h]; simp, by rw [h]; simp⟩
  have whole : elided.length = 23 := rfl
  have := List.length_pos_iff.2 hy
  rw [h, List.length_append] at whole
  omega

theorem noneAcross_separator (u v : Text) : Text.NoneAcross elided (u ++ separator) v := by
  intro x y hxy hx _
  by_contra hne
  obtain ⟨hnx, hny⟩ := not_or.1 hne
  obtain ⟨n, hn, rfl, -⟩ := exists_take_of_elided hxy hny
  have ends : ∀ n < 23, ¬ separator <:+ elided.take n := by decide
  have begins : ∀ n < 23, n ≠ 0 → elided.take n ≠ [':'] := by decide
  have positive : n ≠ 0 := by
    rintro rfl
    exact hnx rfl
  by_cases long : 2 ≤ (elided.take n).length
  · exact ends n hn (List.suffix_of_suffix_length_le (List.suffix_append u separator) hx long)
  · have one : (elided.take n).length = 1 := by
      have := List.length_pos_iff.2 hnx
      omega
    obtain ⟨c, hc⟩ := List.length_eq_one_iff.1 one
    rw [hc] at hx
    obtain ⟨t, ht⟩ := hx
    have last := congrArg List.getLast? ht
    obtain rfl : c = ':' := by simpa [separator] using last
    exact begins n hn positive hc

theorem noneAcross_of_unmarked {u : Text} (hl : u.getLast? ≠ some ':')
    (hm : ¬ anonymousNamespace <:+ u) (v : Text) :
    Text.NoneAcross elided u (separator ++ v) := by
  intro x y hxy hx hy
  by_contra hne
  obtain ⟨hnx, hny⟩ := not_or.1 hne
  obtain ⟨n, hn, rfl, rfl⟩ := exists_take_of_elided hxy hny
  have places : ∀ n < 23, (elided.drop n).head? = some ':' → n = 21 ∨ n = 22 := by decide
  have colon : (elided.drop n).head? = some ':' := by
    obtain ⟨d, y, hd⟩ := List.exists_cons_of_ne_nil hny
    rw [hd] at hy ⊢
    obtain ⟨rfl, -⟩ := List.cons_prefix_cons.1 hy
    rfl
  rcases places n hn colon with rfl | rfl
  · exact hm hx
  · obtain ⟨t, rfl⟩ := hx
    refine hl ?_
    have last : (elided.take 22).getLast? = some ':' := by decide
    rw [List.getLast?_append, last]
    rfl

theorem noneAcross_anonymousNamespace (u : Text) :
    Text.NoneAcross elided u anonymousNamespace := by
  intro x y hxy _ hy
  refine .inr (by_contra fun hny => ?_)
  have last : y.getLast? = some ':' := by
    have whole : elided.getLast? = some ':' := by decide
    rwa [hxy, List.getLast?_append_of_ne_nil _ hny] at whole
  have absent : ':' ∉ anonymousNamespace := by decide
  exact absent (hy.subset (List.mem_of_getLast? last))

theorem noneAcross_singleton {c : Char} (hc : c ≠ ':') (u : Text) :
    Text.NoneAcross elided u [c] := by
  intro x y hxy _ hy
  refine .inr (by_contra fun hny => hc ?_)
  have last : y.getLast? = some ':' := by
    have whole : elided.getLast? = some ':' := by decide
    rwa [hxy, List.getLast?_append_of_ne_nil _ hny] at whole
  exact (List.mem_singleton.1 (hy.subset (List.mem_of_getLast? last))).symm

/-! ## Scopes with a separator behind each -/

/-- The text before a component: its scopes, with a separator behind each. -/
def lead : List Text → Text
  | [] => []
  | scope :: scopes => scope ++ (separator ++ lead scopes)

theorem lead_append (xs ys : List Text) : lead (xs ++ ys) = lead xs ++ lead ys := by
  induction xs with
  | nil => rfl
  | cons x xs ih => simp [lead, ih]

theorem join_concat (xs : List Text) (x : Text) : join (xs ++ [x]) = lead xs ++ x := by
  induction xs with
  | nil => rfl
  | cons y xs ih =>
    rw [List.cons_append, join_cons_of_ne_nil _ (by simp), ih]
    simp [lead]

theorem lead_eq_join {xs : List Text} (h : xs ≠ []) : lead xs = join xs ++ separator := by
  obtain ⟨ys, y, rfl⟩ := (List.eq_nil_or_concat' xs).resolve_left h
  rw [lead_append, join_concat]
  simp [lead]

theorem noneAcross_lead (xs : List Text) (v : Text) : Text.NoneAcross elided (lead xs) v := by
  by_cases h : xs = []
  · subst h
    intro x y _ hx _
    exact .inl (List.suffix_nil.1 hx)
  · rw [lead_eq_join h]
    exact noneAcross_separator _ _

/-- Scopes that are markers leave nothing. -/
theorem withoutMarkers_lead_replicate (n : Nat) :
    withoutMarkers (lead (List.replicate n anonymousNamespace)) = [] := by
  induction n with
  | zero => exact Text.erase_nil _
  | succ n ih =>
    have shape : lead (List.replicate (n + 1) anonymousNamespace) =
        elided ++ lead (List.replicate n anonymousNamespace) := by
      simp [List.replicate_succ, lead, elided]
    rw [shape, withoutMarkers, Text.erase_pattern_append elided_ne_nil]
    exact ih

/-! ## Taking the markers out of the parts -/

theorem withoutMarkers_append {u v : Text} (h : Text.NoneAcross elided u v) :
    withoutMarkers (u ++ v) = withoutMarkers u ++ withoutMarkers v :=
  Text.erase_append elided_ne_nil h

theorem withoutMarkers_lead_append (xs : List Text) (v : Text) :
    withoutMarkers (lead xs ++ v) = withoutMarkers (lead xs) ++ withoutMarkers v :=
  withoutMarkers_append (noneAcross_lead xs v)

/-- A marker at the end has no separator behind it, so it stays. -/
theorem withoutMarkers_append_anonymousNamespace (u : Text) :
    withoutMarkers (u ++ anonymousNamespace) = withoutMarkers u ++ anonymousNamespace := by
  have kept : withoutMarkers anonymousNamespace = anonymousNamespace := by decide
  rw [withoutMarkers_append (noneAcross_anonymousNamespace u), kept]

theorem withoutMarkers_concat {c : Char} (hc : c ≠ ':') (u : Text) :
    withoutMarkers (u ++ [c]) = withoutMarkers u ++ [c] := by
  have kept : withoutMarkers [c] = [c] := by
    refine Text.erase_of_not_infix fun hi => ?_
    have long : elided.length = 23 := rfl
    have short := hi.length_le
    rw [long] at short
    simp at short
  rw [withoutMarkers_append (noneAcross_singleton hc u), kept]

/-- Behind a text that ends in no marker, a separator stays. -/
theorem withoutMarkers_append_separator {u : Text} (hl : u.getLast? ≠ some ':')
    (hm : ¬ anonymousNamespace <:+ u) :
    withoutMarkers (u ++ separator) = withoutMarkers u ++ separator := by
  have kept : withoutMarkers separator = separator := by decide
  have none_across := noneAcross_of_unmarked hl hm []
  rw [List.append_nil] at none_across
  rw [withoutMarkers_append none_across, kept]

/-! ## Names without a leading separator -/

theorem dropLeading_eq (name : Text) :
    (∃ rest, name = separator ++ rest ∧ dropLeading name = rest) ∨
      (¬ separator <+: name ∧ dropLeading name = name) := by
  unfold dropLeading
  cases h : separator.isPrefixOf? name with
  | some rest => exact .inl ⟨rest, Text.isPrefixOf?_eq_some_iff.1 h, rfl⟩
  | none =>
    refine .inr ⟨?_, rfl⟩
    rintro ⟨rest, hrest⟩
    rw [Text.isPrefixOf?_eq_some_iff.2 hrest.symm] at h
    cases h

theorem dropLeading_of_not_prefix {name : Text} (h : ¬ separator <+: name) :
    dropLeading name = name := by
  rcases dropLeading_eq name with ⟨rest, rfl, -⟩ | ⟨-, same⟩
  · exact absurd (List.prefix_append ..) h
  · exact same

theorem dropLeading_separator (rest : Text) : dropLeading (separator ++ rest) = rest := by
  rw [dropLeading, Text.isPrefixOf?_eq_some_iff.2 rfl]
  rfl

theorem splitLast_of_components {name last : Text} {scopes : List Text}
    (h : components name = scopes ++ [last]) :
    splitLast name = (if scopes = [] then none else some (join scopes), last) := by
  have tail : (scopes ++ [last]).getLast? = some last := List.getLast?_concat ..
  have init : (scopes ++ [last]).dropLast = scopes := List.dropLast_concat ..
  unfold splitLast
  simp only [h, tail, init]
  cases scopes <;> simp

/-- The last component, and the enclosing part without a leading separator, are those of the
name without one. -/
theorem splitLast_dropLeading {name last : Text} {scopes : List Text}
    (h : components (dropLeading name) = scopes ++ [last]) :
    (splitLast name).2 = last ∧
      dropLeading ((splitLast name).1.getD []) = join scopes := by
  rcases dropLeading_eq name with ⟨rest, rfl, hr⟩ | ⟨hp, hr⟩
  · rw [hr] at h
    have whole : components (separator ++ rest) = ([] :: scopes) ++ [last] := by
      rw [List.cons_append, ← h]
      rfl
    rw [splitLast_of_components whole]
    refine ⟨rfl, ?_⟩
    cases scopes with
    | nil => rfl
    | cons scope scopes => exact dropLeading_separator _
  · rw [hr] at h
    rw [splitLast_of_components h]
    refine ⟨rfl, ?_⟩
    by_cases hs : scopes = []
    · subst hs
      rfl
    · simp only [hs, ↓reduceIte, Option.getD_some]
      refine dropLeading_of_not_prefix fun hpre => hp (hpre.trans ?_)
      obtain ⟨hname, -⟩ := components_eq_append h hs (by simp)
      exact ⟨_, hname.symm⟩

/-! ## Names whose markers go without a trace -/

/-- The scopes around the last component, without the markers that stand last among them. -/
def ownScopes (name : Text) : List Text :=
  (components (dropLeading name)).dropLast.rdropWhile (· = anonymousNamespace)

/-- The markers of the name go without a trace: nothing runs together where they go, and the
innermost scope that is no marker itself has a name, which does not end in a marker. -/
structure Traceless (name : Text) : Prop where
  apart : MarkersApart (dropLeading name)
  named : (ownScopes name).getLast? ≠ some []
  unmarked : ¬ anonymousNamespace <:+ withoutMarkers (join (ownScopes name))

instance (name : Text) : Decidable (Traceless name) :=
  decidable_of_iff
    (MarkersApart (dropLeading name) ∧ (ownScopes name).getLast? ≠ some [] ∧
      ¬ anonymousNamespace <:+ withoutMarkers (join (ownScopes name)))
    ⟨fun ⟨a, n, u⟩ => ⟨a, n, u⟩, fun ⟨a, n, u⟩ => ⟨a, n, u⟩⟩

theorem join_isPrefix (xs ys : List Text) : join xs <+: join (xs ++ ys) := by
  by_cases hx : xs = []
  · subst hx
    exact List.nil_prefix
  · rcases List.eq_nil_or_concat' ys with rfl | ⟨zs, y, rfl⟩
    · rw [List.append_nil]
    · rw [← List.append_assoc, join_concat, lead_append, lead_eq_join hx, List.append_assoc,
        List.append_assoc]
      exact List.prefix_append ..

/-- Without a marker there is no trace of one: all that counts is that the innermost scope has a
name. -/
theorem Traceless.of_unmarked {name : Text} (h : ¬ anonymousNamespace <:+: name)
    (named : (ownScopes name).getLast? ≠ some []) : Traceless name := by
  have shorter : dropLeading name <:+: name := by
    rcases dropLeading_eq name with ⟨rest, rfl, hr⟩ | ⟨-, hr⟩
    · rw [hr]
      exact (List.suffix_append ..).isInfix
    · rw [hr]
  have marker : anonymousNamespace <:+: elided := (List.prefix_append ..).isInfix
  have scopes : join (ownScopes name) <:+: dropLeading name := by
    obtain ⟨rest, hr⟩ := (List.rdropWhile_prefix (· = anonymousNamespace)
      (components (dropLeading name)).dropLast).trans (List.dropLast_prefix _)
    have whole := join_isPrefix (ownScopes name) rest
    rw [ownScopes, hr, join_components] at whole
    exact whole.isInfix
  refine ⟨?_, named, ?_⟩
  · intro u v cut
    have inside : elided <:+: dropLeading name := ⟨u, v, by rw [cut, List.append_assoc]⟩
    exact absurd (marker.trans (inside.trans shorter)) h
  · intro ends
    have kept : withoutMarkers (join (ownScopes name)) = join (ownScopes name) :=
      Text.erase_of_not_infix fun he => h (marker.trans (he.trans (scopes.trans shorter)))
    rw [kept] at ends
    exact h (ends.isInfix.trans (scopes.trans shorter))

/-- The components of the scope that a normalized enclosing name stands for. -/
def scopePath (enclosing : Text) : List Text :=
  if enclosing = [] then [] else components enclosing

theorem join_scopePath (enclosing : Text) : join (scopePath enclosing) = enclosing := by
  unfold scopePath
  split
  · rename_i h
    rw [h]
    rfl
  · exact join_components enclosing

theorem scopePath_injective {enclosing other : Text}
    (h : scopePath enclosing = scopePath other) : enclosing = other := by
  rw [← join_scopePath enclosing, h, join_scopePath]

theorem dropLastMarker_of_unmarked {t : Text} (h : ¬ anonymousNamespace <:+ t) :
    dropLastMarker t = t := by
  unfold dropLastMarker
  cases hs : (separator ++ anonymousNamespace).isSuffixOf? t with
  | some rest =>
    refine absurd ?_ h
    rw [Text.isSuffixOf?_eq_some_iff.1 hs, ← List.append_assoc]
    exact List.suffix_append ..
  | none =>
    rw [if_neg]
    rintro rfl
    exact h List.suffix_rfl

/-- Without a separator in front and without markers, nothing goes. -/
theorem normalize_of_unmarked {name : Text} (leading : ¬ separator <+: name)
    (unmarked : ¬ anonymousNamespace <:+: name) : normalize name = name := by
  have kept : withoutMarkers name = name := Text.erase_of_not_infix fun marker =>
    unmarked ((List.prefix_append anonymousNamespace separator).isInfix.trans marker)
  have last : dropLastMarker name = name :=
    dropLastMarker_of_unmarked fun ends => unmarked ends.isInfix
  have steps : normalize name = dropLastMarker (withoutMarkers (dropLeading name)) := rfl
  rw [steps, dropLeading_of_not_prefix leading, kept, last]

theorem dropLastMarker_append (t : Text) :
    dropLastMarker (t ++ (separator ++ anonymousNamespace)) = t := by
  rw [dropLastMarker, Text.isSuffixOf?_eq_some_iff.2 rfl]

theorem not_suffix_numbered (t : Text) (n : Nat) :
    ¬ anonymousNamespace <:+ numbered t n := by
  intro h
  have last : (numbered t n).getLast? = some ')' := by
    obtain ⟨u, hu⟩ := h
    rw [← hu, List.getLast?_append]
    rfl
  have digit : (numbered t n).getLast? = (Text.ofNat n).getLast? := by
    rw [numbered, ← List.singleton_append, ← List.append_assoc,
      List.getLast?_append_of_ne_nil _ (Text.ofNat_ne_nil n)]
  rw [digit] at last
  exact Text.not_mem_ofNat (by decide) n (List.mem_of_getLast? last)

/-- Normalizing a numbered name only takes a leading separator and markers out. -/
theorem normalize_numbered (name : Text) (n : Nat) :
    normalize (numbered name n) = numbered (withoutMarkers (dropLeading name)) n := by
  have leading : dropLeading (numbered name n) = numbered (dropLeading name) n := by
    have tick : '\x60' ∉ separator := by decide
    unfold dropLeading numbered
    rw [isPrefixOf?_append_of_not_mem tick]
    cases separator.isPrefixOf? name <;> rfl
  have tail : withoutMarkers ('\x60' :: Text.ofNat n) = '\x60' :: Text.ofNat n := by
    refine Text.erase_of_not_mem (c := '(') ?_
    have := Text.not_mem_ofNat (c := '(') (by decide) n
    simpa using this
  have erased : withoutMarkers (numbered (dropLeading name) n) =
      numbered (withoutMarkers (dropLeading name)) n := by
    rw [numbered, withoutMarkers_append (noneAcross_of_not_mem (by decide) _ _), tail, numbered]
  have steps : normalize (numbered name n) =
      dropLastMarker (withoutMarkers (dropLeading (numbered name n))) := rfl
  rw [steps, leading, erased, dropLastMarker_of_unmarked (not_suffix_numbered _ n)]

/-- What is left of the innermost scope that is no marker, and of those around it: a text that
ends outside everything and in no colon. -/
theorem Traceless.left_of_scopes {name : Text} {rest : List Text} (h : Traceless name)
    (hc : components (dropLeading name) = ownScopes name ++ rest) (hr : rest ≠ [])
    (hne : ownScopes name ≠ []) :
    (∀ n, withoutMarkers (lead (ownScopes name ++ List.replicate n anonymousNamespace)) =
        withoutMarkers (join (ownScopes name)) ++ separator) ∧
      depthAfter [] .zero (withoutMarkers (join (ownScopes name))) = .zero ∧
      ∃ t c, withoutMarkers (join (ownScopes name)) = t ++ [c] ∧ c ≠ ':' := by
  obtain ⟨hname, -, -, depth⟩ := components_eq_append hc hne hr
  obtain ⟨scopes, scope, hs⟩ := (List.eq_nil_or_concat' _).resolve_left hne
  have named : scope ≠ [] := by
    rintro rfl
    exact h.named (by rw [hs]; simp)
  obtain ⟨begin, c, rfl⟩ := (List.eq_nil_or_concat' _).resolve_left named
  have plain : c ≠ ':' := by
    have := getLast?_ne_colon_of_components hc hr (begin ++ [c]) (by rw [hs]; simp)
    simpa using this
  have shape : join (ownScopes name) = (lead scopes ++ begin) ++ [c] := by
    rw [hs, join_concat, List.append_assoc]
  have unmarked : ¬ anonymousNamespace <:+ join (ownScopes name) := by
    rintro ⟨u, hu⟩
    refine h.unmarked ⟨withoutMarkers u, ?_⟩
    rw [← hu, withoutMarkers_append_anonymousNamespace]
  refine ⟨fun n => ?_, ?_, withoutMarkers (lead scopes ++ begin), c, ?_, plain⟩
  · have colon : (join (ownScopes name)).getLast? ≠ some ':' := by
      rw [shape]
      simpa using plain
    rw [lead_append, withoutMarkers_lead_append, withoutMarkers_lead_replicate, List.append_nil,
      lead_eq_join hne, withoutMarkers_append_separator colon unmarked]
  · have apart : MarkersApart (join (ownScopes name)) := by
      have := h.apart
      rw [hname] at this
      exact this.of_append_left
    rw [depthAfter_erase apart]
    exact depth
  · rw [shape, withoutMarkers_concat plain]

/-- The scopes around the last component are its own and markers. -/
theorem exists_markers {name last : Text} {scopes : List Text}
    (hc : components (dropLeading name) = scopes ++ [last]) :
    ∃ n, scopes = ownScopes name ++ List.replicate n anonymousNamespace := by
  refine ⟨(scopes.rtakeWhile (· = anonymousNamespace)).length, ?_⟩
  have all : scopes.rtakeWhile (· = anonymousNamespace) =
      List.replicate (scopes.rtakeWhile (· = anonymousNamespace)).length anonymousNamespace :=
    List.eq_replicate_of_mem fun x hx => by simpa using List.mem_rtakeWhile_imp hx
  rw [← all, ownScopes, hc, List.dropLast_concat]
  exact List.rdropWhile_append_rtakeWhile.symm

/-- The enclosing part of a name on its own, when its markers go without a trace. -/
theorem Traceless.normalize_enclosing {name last : Text} {n : Nat} (h : Traceless name)
    (hc : components (dropLeading name) =
      (ownScopes name ++ List.replicate n anonymousNamespace) ++ [last]) :
    normalize ((splitLast name).1.getD []) = withoutMarkers (join (ownScopes name)) := by
  have steps : normalize ((splitLast name).1.getD []) =
      dropLastMarker (withoutMarkers (join
        (ownScopes name ++ List.replicate n anonymousNamespace))) := by
    rw [← (splitLast_dropLeading hc).2]
    rfl
  rw [steps]
  cases n with
  | zero =>
    rw [List.replicate_zero, List.append_nil]
    exact dropLastMarker_of_unmarked h.unmarked
  | succ n =>
    rw [List.replicate_succ', ← List.append_assoc, join_concat,
      withoutMarkers_append_anonymousNamespace]
    by_cases hne : ownScopes name = []
    · rw [hne, List.nil_append, withoutMarkers_lead_replicate]
      decide
    · rw [List.append_assoc] at hc
      rw [(h.left_of_scopes hc (by simp) hne).1 n, List.append_assoc]
      exact dropLastMarker_append _

/-- A numbered name whose markers go without a trace is stored in the scope that its enclosing
part stands for on its own, under its last component. -/
theorem path_numbered {name : Text} (h : Traceless name) (n : Nat) :
    path (numbered name n) =
      scopePath (normalize ((splitLast name).1.getD [])) ++
        [numbered (withoutMarkers (splitLast name).2) n] := by
  obtain ⟨scopes, last, hc⟩ :=
    (List.eq_nil_or_concat' _).resolve_left (components_ne_nil (dropLeading name))
  obtain ⟨markers, rfl⟩ := exists_markers hc
  rw [h.normalize_enclosing hc]
  obtain ⟨rfl, -⟩ := splitLast_dropLeading hc
  have whole : dropLeading name =
      lead (ownScopes name ++ List.replicate markers anonymousNamespace) ++
        (splitLast name).2 := by
    rw [← join_concat, ← hc, join_components]
  have single : components (splitLast name).2 = [(splitLast name).2] := by
    by_cases hs : ownScopes name ++ List.replicate markers anonymousNamespace = []
    · have same : dropLeading name = (splitLast name).2 := by
        rw [whole, hs]
        rfl
      rwa [hs, List.nil_append, same] at hc
    · exact (components_eq_append hc hs (by simp)).2.2.1
  have apart : MarkersApart (splitLast name).2 := by
    have := h.apart
    rw [whole] at this
    exact this.of_append_right (noneAcross_lead _ _)
  have local_part : components (numbered (withoutMarkers (splitLast name).2) n) =
      [numbered (withoutMarkers (splitLast name).2) n] := by
    refine components_erase apart single ?_
    have := Text.not_mem_ofNat (c := ':') (by decide) n
    simpa using this
  have stored : path (numbered name n) = components
      (withoutMarkers (lead (ownScopes name ++ List.replicate markers anonymousNamespace)) ++
        numbered (withoutMarkers (splitLast name).2) n) := by
    rw [path, normalize_numbered, whole, withoutMarkers_lead_append]
    simp [numbered]
  rw [stored]
  by_cases hne : ownScopes name = []
  · have outermost : scopePath (withoutMarkers (join [])) = [] := by decide
    rw [hne, outermost, List.nil_append, withoutMarkers_lead_replicate, List.nil_append,
      local_part, List.nil_append]
  · rw [List.append_assoc] at hc
    obtain ⟨left, depth, t, c, shape, hcolon⟩ := h.left_of_scopes hc (by simp) hne
    have last_char : (withoutMarkers (join (ownScopes name))).getLast? ≠ some ':' := by
      rw [shape]
      simpa using hcolon
    have named : withoutMarkers (join (ownScopes name)) ≠ [] := by
      rw [shape]
      simp
    rw [left, List.append_assoc, components_append depth last_char, local_part, scopePath,
      if_neg named]

end Name

end ConstantDump
