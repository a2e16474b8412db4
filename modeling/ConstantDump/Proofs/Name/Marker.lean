import ConstantDump.Name.Normal
import ConstantDump.Proofs.Name.Scan
import ConstantDump.Proofs.Text.Erase

/-!
Taking the markers of anonymous namespaces out of a name. A marker closes the bracket that it
opens, so it does not change the depth; but the characters on its two sides come together,
and may then read as an operator's name, or no longer as one.

* `depthAfter_erase`: where nothing runs together, the depth stays the same;
* `components_erase`: one component is still one component then.
-/

namespace ConstantDump.Name

/-- What goes from a name: a marker with the separator behind it. -/
def elided : Text := anonymousNamespace ++ separator

def withoutMarkers (t : Text) : Text := Text.erase elided t

theorem elided_ne_nil : elided ≠ [] := by decide

theorem unbordered_elided : Text.Unbordered elided :=
  Text.unbordered_cons (c := '(') (q := elided.tail) (by decide)

theorem depthAfter_elided (before : Text) (d : Depth) : depthAfter before d elided = d := rfl

theorem depthAfter_anonymousNamespace (before : Text) (d : Depth) :
    depthAfter before d anonymousNamespace = d := rfl

/-! ## What comes together -/

/-- Whether two characters may come together where markers go: the first one is no part of a
word, and a look back does not pass over both. -/
def mayMeet (before after : Option Char) : Bool :=
  match before with
  | none => true
  | some c => !isWordPart c && (!isPassed c || !after.any isPassed)

/-- What comes together where the markers of a text go may do so. -/
def MarkersApart (t : Text) : Prop :=
  ∀ u v, t = u ++ (elided ++ v) →
    mayMeet (withoutMarkers u).getLast? (withoutMarkers v).head? = true

theorem markersApart_iff_take {t : Text} :
    MarkersApart t ↔ ∀ n < t.length, elided <+: t.drop n →
      mayMeet (withoutMarkers (t.take n)).getLast?
        (withoutMarkers (t.drop (n + elided.length))).head? = true := by
  constructor
  · rintro h n - ⟨v, hv⟩
    have cut : t = t.take n ++ (elided ++ v) := by rw [hv, List.take_append_drop]
    have rest : t.drop (n + elided.length) = v := by
      rw [← List.drop_drop, ← hv, List.drop_left]
    rw [rest]
    exact h _ v cut
  · rintro h u v rfl
    have pos : u.length < (u ++ (elided ++ v)).length := by
      have := List.length_pos_iff.2 elided_ne_nil
      simp only [List.length_append]
      omega
    have meets := h u.length pos (by simp)
    rw [← List.drop_drop] at meets
    simpa using meets

instance (t : Text) : Decidable (MarkersApart t) :=
  decidable_of_iff _ markersApart_iff_take.symm

theorem mayMeet_none {before after : Option Char} (h : mayMeet before after = true) :
    mayMeet before none = true := by
  cases before with
  | none => rfl
  | some c =>
    simp only [mayMeet, Bool.and_eq_true] at h
    simp [mayMeet, h.1]

/-- An opening parenthesis may come where the end may. -/
theorem mayMeet_parenthesis {before : Option Char} (h : mayMeet before none = true) :
    mayMeet before (some '(') = true := by
  cases before with
  | none => rfl
  | some c =>
    have passed : isPassed '(' = false := by decide
    simpa [mayMeet, passed] using h

theorem MarkersApart.of_append_left {u v : Text} (h : MarkersApart (u ++ v)) :
    MarkersApart u := by
  rintro x y rfl
  have meets := h x (y ++ v) (by simp)
  rcases Text.head?_erase_append elided_ne_nil y v with hy | hy | hy
  · rw [withoutMarkers, withoutMarkers, hy]
    exact mayMeet_none meets
  · rw [withoutMarkers, withoutMarkers, hy]
    exact mayMeet_parenthesis (mayMeet_none meets)
  · rw [withoutMarkers, withoutMarkers, ← hy]
    exact meets

theorem MarkersApart.of_append_right {u v : Text} (h : MarkersApart (u ++ v))
    (across : Text.NoneAcross elided u v) : MarkersApart v := by
  rintro x y rfl
  have cut : withoutMarkers (u ++ x) = withoutMarkers u ++ withoutMarkers x :=
    Text.erase_append elided_ne_nil fun a b hab ha hb =>
      across a b hab ha (hb.trans (List.prefix_append ..))
  have meets := h (u ++ x) y (by simp)
  rw [cut] at meets
  cases hx : (withoutMarkers x).getLast? with
  | none => rfl
  | some c =>
    rw [List.getLast?_append, hx] at meets
    exact meets

/-- Behind characters that may meet what follows, the scan goes on as behind a marker. -/
theorem depthAfter_of_mayMeet {before w t : Text} (h : mayMeet before.head? t.head? = true)
    (d : Depth) : depthAfter before d t = depthAfter (':' :: w) d t := by
  cases before with
  | nil => exact depthAfter_congr (alike_nil_colon w) d t
  | cons c before =>
    simp only [List.head?_cons, mayMeet, Bool.and_eq_true, Bool.not_eq_true',
      Bool.or_eq_true] at h
    obtain ⟨hword, hpassed⟩ := h
    by_cases hc : isPassed c = false
    · refine depthAfter_congr (fun x => ?_) d t
      rw [followsOperator_append hword (.inl hc), followsOperator_append rfl (.inl rfl)]
    · cases t with
      | nil => rfl
      | cons z t =>
        have hz : isPassed z = false := by simpa [hc] using hpassed
        rw [depthAfter, depthAfter, Depth.next_of_not_passed hz (c :: before) (':' :: w)]
        refine depthAfter_congr (fun x => ?_) _ t
        have stops {b : Char} (hb : isWordPart b = false) (rest : Text) :
            followsOperator (x ++ z :: b :: rest) = followsOperator (x ++ [z]) := by
          have := followsOperator_append hb (x := x ++ [z]) (.inr ⟨z, by simp, hz⟩) rest
          simpa using this
        rw [stops hword, stops rfl]

/-- Where nothing runs together, taking the markers out does not change the depth. -/
theorem depthAfter_erase {t : Text} (h : MarkersApart t) (d : Depth) :
    depthAfter [] d (withoutMarkers t) = depthAfter [] d t := by
  induction hn : t.length using Nat.strongRecOn generalizing t with
  | ind n ih =>
    subst hn
    by_cases hi : elided <:+: t
    · obtain ⟨u, v, rfl, hv⟩ := Text.exists_last_occurrence elided_ne_nil hi
      have shorter : u.length < (u ++ (elided ++ v)).length := by
        have := List.length_pos_iff.2 elided_ne_nil
        simp only [List.length_append]
        omega
      have inner := ih _ shorter h.of_append_left rfl
      have kept : withoutMarkers v = v := Text.erase_of_not_infix hv
      have cut : withoutMarkers (u ++ (elided ++ v)) = withoutMarkers u ++ v := by
        rw [← kept]
        nth_rewrite 1 [kept]
        exact Text.erase_found elided_ne_nil unbordered_elided u v
      have meets := h u v rfl
      rw [kept, ← List.head?_reverse] at meets
      rw [cut, depthAfter_append, depthAfter_append, inner, depthAfter_append,
        depthAfter_elided, List.append_nil]
      exact depthAfter_of_mayMeet meets _
    · rw [withoutMarkers, Text.erase_of_not_infix hi]

/-! ## One component -/

/-- A name that is one component is one without its markers as well, also with more text
behind it in which no separator begins. -/
theorem components_erase {t w : Text} (h : MarkersApart t) (single : components t = [t])
    (hw : ':' ∉ w) : components (withoutMarkers t ++ w) = [withoutMarkers t ++ w] := by
  rw [components_eq_singleton_iff] at single ⊢
  intro u v huv
  obtain ⟨v', left⟩ : ∃ v', withoutMarkers t = u ++ ':' :: ':' :: v' := by
    rcases List.append_eq_append_iff.1 huv with ⟨x, -, hx⟩ | ⟨x, hx, hs⟩
    · exact absurd (by rw [hx]; simp [separator]) hw
    · rcases x with _ | ⟨_, _ | ⟨_, v'⟩⟩
      · have hs : separator ++ v = w := hs
        exact absurd (by rw [← hs]; simp [separator]) hw
      · have hs : ':' :: v = w := (List.cons.inj hs).2
        exact absurd (by rw [← hs]; simp) hw
      · obtain ⟨rfl, rfl, -⟩ : ':' = _ ∧ ':' = _ ∧ v = v' ++ w := by
          simpa [separator] using hs
        exact ⟨v', hx⟩
  obtain ⟨u₀, v₀, ht, hu, hv⟩ := Text.erase_eq_append_cons elided_ne_nil left
  have before : depthAfter [] .zero u = depthAfter [] .zero u₀ := by
    rw [← hu]
    exact depthAfter_erase (ht ▸ h).of_append_left _
  rw [before]
  by_cases hp : elided <+: v₀
  · -- The second colon stood behind a marker, which has a separator at the same depth.
    obtain ⟨rest, rfl⟩ := hp
    have guarded := single (u₀ ++ ':' :: anonymousNamespace) rest (by rw [ht]; simp [elided])
    rw [depthAfter_append, depthAfter, Depth.next_colon, depthAfter_anonymousNamespace] at guarded
    exact guarded
  · cases v₀ with
    | nil => simp at hv
    | cons c rest =>
      rw [Text.erase_cons hp] at hv
      obtain ⟨rfl, -⟩ := List.cons.inj hv
      exact single u₀ rest ht

end ConstantDump.Name
