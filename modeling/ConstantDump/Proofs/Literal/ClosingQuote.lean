import ConstantDump.Proofs.Literal.Array

/-!
Where a quoted literal ends. The splitter of pieces ends it at the first quote that no backslash
hides, the decoder at the last character, whatever is in between.

* `staysQuoted_iff`: the last quote closes the first one when it is not hidden and every one
  before it is;
* `closedByLast_iff_split`: then, and only then, the whole is one piece without an earlier end;
* `decode_quotation`: the decoder reads one literal in any case, also where the splitter finds
  that the first quote is closed early, or not at all.
-/

namespace ConstantDump

namespace Text

/-! ## Hidden characters -/

/-- How many backslashes a text ends with. -/
def backslashes (t : Text) : Nat := (t.reverse.takeWhile (· = '\\')).length

/-- What follows the text is not hidden by a backslash: those at its end hide one another. -/
def LeavesVisible (t : Text) : Prop := backslashes t % 2 = 0

instance (t : Text) : Decidable (LeavesVisible t) := inferInstanceAs (Decidable (_ = _))

theorem leavesVisible_nil : LeavesVisible [] := rfl

theorem backslashes_concat (t : Text) (c : Char) :
    backslashes (t ++ [c]) = if c = '\\' then backslashes t + 1 else 0 := by
  by_cases h : c = '\\' <;> simp [backslashes, h]

theorem leavesVisible_backslash (t : Text) : LeavesVisible (t ++ ['\\']) ↔ ¬ LeavesVisible t := by
  rw [LeavesVisible, LeavesVisible, backslashes_concat, if_pos rfl]
  omega

theorem leavesVisible_concat {c : Char} (h : c ≠ '\\') (t : Text) : LeavesVisible (t ++ [c]) := by
  rw [LeavesVisible, backslashes_concat, if_neg h]

/-- A text that hides nothing behind it may stand in front of any other. -/
theorem leavesVisible_append {u : Text} (h : LeavesVisible u) (t : Text) :
    LeavesVisible (u ++ t) ↔ LeavesVisible t := by
  induction t using List.reverseRecOn with
  | nil => simpa using ⟨fun _ => leavesVisible_nil, fun _ => h⟩
  | append_singleton t c ih =>
    rw [← List.append_assoc]
    by_cases hc : c = '\\'
    · subst hc
      rw [leavesVisible_backslash, leavesVisible_backslash, ih]
    · simp only [leavesVisible_concat hc]

/-! ## The quote that closes -/

def QuotesHidden (quote : Char) (t : Text) : Prop :=
  ∀ before after, t = before ++ quote :: after → ¬ LeavesVisible before

/-- Between two quotes, the last one closes the first one: it is visible, and none before it
is. -/
structure ClosedByLast (quote : Char) (body : Text) : Prop where
  last : LeavesVisible body
  earlier : QuotesHidden quote body

variable {quote : Char}

theorem quotesHidden_nil : QuotesHidden quote [] := by
  intro before after h
  simp at h

theorem quotesHidden_concat {t : Text} {c : Char} :
    QuotesHidden quote (t ++ [c]) ↔
      QuotesHidden quote t ∧ (c = quote → ¬ LeavesVisible t) := by
  constructor
  · intro h
    refine ⟨?_, ?_⟩
    · rintro before after rfl
      exact h before (after ++ [c]) (by simp)
    · rintro rfl
      exact h t [] rfl
  · rintro ⟨begin, last⟩ before after cut
    rcases List.eq_nil_or_concat after with rfl | ⟨inner, d, rfl⟩
    · obtain ⟨rfl, same⟩ := List.append_inj' cut rfl
      exact last (List.cons.inj same).1
    · have shorter : t ++ [c] = (before ++ quote :: inner) ++ [d] := by simpa using cut
      exact begin before inner (List.append_inj' shorter rfl).1

/-- What has no visible quote, and hides nothing behind it, may stand in front. -/
theorem quotesHidden_append {u : Text} (visible : LeavesVisible u) (hidden : QuotesHidden quote u)
    (t : Text) : QuotesHidden quote (u ++ t) ↔ QuotesHidden quote t := by
  constructor
  · rintro h before after rfl seen
    exact h (u ++ before) after (by simp) ((leavesVisible_append visible before).2 seen)
  · intro h before after cut
    rcases List.append_eq_append_iff.1 cut with ⟨w, rfl, ht⟩ | ⟨w, hu, hw⟩
    · rw [leavesVisible_append visible]
      exact h w after ht
    · cases w with
      | nil => exact absurd leavesVisible_nil (h [] after hw.symm)
      | cons c w =>
        obtain ⟨rfl, -⟩ := List.cons.inj hw
        exact hidden before w hu

theorem closedByLast_append {u : Text} (visible : LeavesVisible u)
    (hidden : QuotesHidden quote u) (t : Text) :
    ClosedByLast quote (u ++ t) ↔ ClosedByLast quote t := by
  constructor
  · rintro ⟨last, earlier⟩
    exact ⟨(leavesVisible_append visible t).1 last,
      (quotesHidden_append visible hidden t).1 earlier⟩
  · rintro ⟨last, earlier⟩
    exact ⟨(leavesVisible_append visible t).2 last,
      (quotesHidden_append visible hidden t).2 earlier⟩

/-- The last quote closes the first one just when the text stays quoted up to it. -/
theorem staysQuoted_iff (hq : quote ≠ '\\') {body : Text} :
    staysQuoted quote body = true ↔ ClosedByLast quote body := by
  fun_induction staysQuoted quote body with
  | case1 => simpa using ⟨leavesVisible_nil, quotesHidden_nil⟩
  | case2 =>
    have hides : ¬ LeavesVisible ['\\'] := by decide
    simpa using fun h : ClosedByLast quote ['\\'] => hides h.last
  | case3 c body ih =>
    have pair : LeavesVisible ['\\', c] := by
      by_cases hc : c = '\\'
      · rw [hc]
        decide
      · exact leavesVisible_concat hc ['\\']
    have first : QuotesHidden quote ['\\'] :=
      (quotesHidden_concat (t := [])).2 ⟨quotesHidden_nil, fun same => absurd same.symm hq⟩
    have hidden : QuotesHidden quote ['\\', c] :=
      (quotesHidden_concat (t := ['\\'])).2 ⟨first, fun _ => by decide⟩
    exact ih.trans (closedByLast_append pair hidden body).symm
  | case4 c body single escape ih =>
    have visible : c ≠ '\\' := ne_backslash single escape
    by_cases same : c = quote
    · subst same
      have early : ¬ ClosedByLast c (c :: body) := fun h =>
        h.earlier [] body rfl leavesVisible_nil
      simpa using early
    · have hidden : QuotesHidden quote [c] :=
        (quotesHidden_concat (t := [])).2 ⟨quotesHidden_nil, fun equal => absurd equal same⟩
      have onward := closedByLast_append (leavesVisible_concat visible []) hidden body
      simpa [same] using ih.trans onward.symm

/-- Where some quote is visible, the first one of these closes the quote in front. -/
theorem exists_closedByLast {before : Text} (h : LeavesVisible before) (after : Text) :
    ∃ inner rest, before ++ quote :: after = inner ++ quote :: rest ∧
      ClosedByLast quote inner := by
  induction hn : before.length using Nat.strongRecOn generalizing before after with
  | ind n ih =>
    subst hn
    by_cases hidden : QuotesHidden quote before
    · exact ⟨before, after, rfl, h, hidden⟩
    · simp only [QuotesHidden, not_forall, not_not] at hidden
      obtain ⟨first, rest, rfl, visible⟩ := hidden
      obtain ⟨inner, others, cut, closed⟩ :=
        ih first.length (by simp) visible (rest ++ quote :: after) rfl
      exact ⟨inner, others, by rw [← cut]; simp, closed⟩

end Text

namespace Bracket

variable {quote : Char}

/-- As long as no quote is visible, the scan is between quotes, and right behind a backslash
when what follows is hidden. -/
theorem after?_of_quotesHidden {closers : List Char} {body : Text}
    (h : Text.QuotesHidden quote body) :
    after? (.quoted quote closers) body =
      some (if Text.LeavesVisible body then .quoted quote closers
        else .escaped quote closers) := by
  induction body using List.reverseRecOn with
  | nil => rfl
  | append_singleton body c ih =>
    obtain ⟨begin, last⟩ := Text.quotesHidden_concat.1 h
    rw [after?_append, ih begin, Option.bind_some]
    by_cases visible : Text.LeavesVisible body
    · rw [if_pos visible]
      by_cases hc : c = '\\'
      · subst hc
        rw [if_neg (by rwa [Text.leavesVisible_backslash, not_not])]
        rfl
      · have other : c ≠ quote := fun same => last same visible
        rw [if_pos (Text.leavesVisible_concat hc body)]
        exact after?_cons_eq_some_iff.2 ⟨_, next?_eq_some_iff.2 (.stays closers hc other), rfl⟩
    · rw [if_neg visible]
      have shown : Text.LeavesVisible (body ++ [c]) := by
        by_cases hc : c = '\\'
        · subst hc
          exact (Text.leavesVisible_backslash body).2 visible
        · exact Text.leavesVisible_concat hc body
      rw [if_pos shown]
      rfl

/-- A last quote that is hidden closes nothing. -/
theorem isBalanced_of_hidden (hq : isQuote quote = true) {body : Text}
    (hidden : ¬ Text.LeavesVisible body) (earlier : Text.QuotesHidden quote body) :
    isBalanced (Text.quotation quote body) = false := by
  have opens : State.start.next? quote = some (.quoted quote []) :=
    next?_eq_some_iff.2 (.quotes [] hq)
  have inside : after? (.quoted quote []) body = some (.escaped quote []) := by
    rw [after?_of_quotesHidden earlier, if_neg hidden]
  have still_open : after? .start (Text.quotation quote body) = some (.quoted quote []) := by
    rw [Text.quotation, after?_cons, opens, Option.bind_some, after?_append, inside]
    rfl
  refine Bool.eq_false_iff.2 fun balanced => ?_
  rw [isBalanced, closes_iff_after?, still_open] at balanced
  cases balanced

theorem split_of_hidden (hq : isQuote quote = true) {body : Text}
    (hidden : ¬ Text.LeavesVisible body) (earlier : Text.QuotesHidden quote body) :
    split ',' (Text.quotation quote body) = none := by
  have comma : Text.isBlank ',' = false := by decide
  rw [← Option.isNone_iff_eq_none, ← Option.not_isSome, isSome_split comma,
    isBalanced_of_hidden hq hidden earlier]
  rfl

/-- The last quote closes the first one just when the whole is one piece and the first one is
not closed before. -/
theorem closedByLast_iff_split (hq : isQuote quote = true) {body : Text} :
    Text.ClosedByLast quote body ↔
      split ',' (Text.quotation quote body) = some [Text.quotation quote body] ∧
        Text.QuotesHidden quote body := by
  constructor
  · intro closed
    have stays := (Text.staysQuoted_iff (ne_backslash_of_isQuote hq)).2 closed
    exact ⟨split_quotation hq stays, closed.earlier⟩
  · rintro ⟨whole, earlier⟩
    refine ⟨by_contra fun hidden => ?_, earlier⟩
    rw [split_of_hidden hq hidden earlier] at whole
    cases whole

/-- Behind a quote that closes the first one early, the splitter goes on outside of quotes. -/
theorem pieces_of_closedEarly (hq : isQuote quote = true) {inner : Text}
    (closed : Text.ClosedByLast quote inner) (rest : Text) :
    pieces ',' (Text.quotation quote (inner ++ quote :: rest)) =
      (pieces ',' (rest ++ [quote])).map (·.modifyHead (Text.quotation quote inner ++ ·)) := by
  have stays := (Text.staysQuoted_iff (ne_backslash_of_isQuote hq)).2 closed
  have shape : Text.quotation quote (inner ++ quote :: rest) =
      Text.quotation quote inner ++ (rest ++ [quote]) := by simp [Text.quotation]
  rw [pieces, shape]
  exact piecesFrom_quotation ',' hq stays (rest ++ [quote])

/-- Where the last quote does not close the first one, nothing does, or an earlier one. -/
theorem split_of_not_closedByLast (hq : isQuote quote = true) {body : Text}
    (h : ¬ Text.ClosedByLast quote body) :
    split ',' (Text.quotation quote body) = none ∨
      ∃ inner rest, body = inner ++ quote :: rest ∧ Text.ClosedByLast quote inner ∧
        pieces ',' (Text.quotation quote body) =
          (pieces ',' (rest ++ [quote])).map (·.modifyHead (Text.quotation quote inner ++ ·)) := by
  by_cases earlier : Text.QuotesHidden quote body
  · exact .inl (split_of_hidden hq (fun visible => h ⟨visible, earlier⟩) earlier)
  · simp only [Text.QuotesHidden, not_forall, not_not] at earlier
    obtain ⟨before, after, rfl, visible⟩ := earlier
    obtain ⟨inner, rest, cut, closed⟩ := Text.exists_closedByLast visible after
    rw [cut]
    exact .inr ⟨inner, rest, rfl, closed, pieces_of_closedEarly hq closed rest⟩

end Bracket

namespace Literal

/-- What begins and ends with one quote is decoded as one quoted literal, with everything in
between as its contents. The splitter finds the same literal exactly when the last quote closes
the first one: no backslash hides it, and each quote before it is hidden. Otherwise the splitter
finds that the first quote is never closed, or that it is closed early and more text follows. -/
theorem decode_quotation (types : Types) {quote : Char} (hq : Bracket.isQuote quote = true)
    (body : Text) :
    decode types (Text.quotation quote body) =
      Quotation.valueOf quote (Text.unescape body) ∧
    (Text.ClosedByLast quote body ↔
      Bracket.split ',' (Text.quotation quote body) = some [Text.quotation quote body] ∧
        Text.QuotesHidden quote body) ∧
    (¬ Text.ClosedByLast quote body →
      Bracket.split ',' (Text.quotation quote body) = none ∨
      ∃ inner rest, body = inner ++ quote :: rest ∧ Text.ClosedByLast quote inner ∧
        Bracket.pieces ',' (Text.quotation quote body) =
          (Bracket.pieces ',' (rest ++ [quote])).map
            (·.modifyHead (Text.quotation quote inner ++ ·))) :=
  ⟨Quotation.decode_enclosed hq body types, Bracket.closedByLast_iff_split hq,
    Bracket.split_of_not_closedByLast hq⟩

/-- The body between the outer quotes of two strings with a comma between them. -/
def twoStrings : Text := "a\", \"b".toList

theorem decode_quotation_two :
    Bracket.isQuote '"' = true ∧ Text.quotation '"' twoStrings = "\"a\", \"b\"".toList ∧
    decode .characters (Text.quotation '"' twoStrings) = .str twoStrings ∧
    ¬ Text.ClosedByLast '"' twoStrings ∧
    Bracket.split ',' (Text.quotation '"' twoStrings) ≠ some [Text.quotation '"' twoStrings] ∧
    Text.ClosedByLast '"' "say \\\"hi\\\"".toList ∧
    decode .characters (Text.quotation '"' "say \\\"hi\\\"".toList) =
      .str "say \"hi\"".toList := by
  have quote : Bracket.isQuote '"' = true := by decide
  have two := decode_quotation .characters quote twoStrings
  have said := decode_quotation .characters quote "say \\\"hi\\\"".toList
  have early : ¬ Text.ClosedByLast '"' twoStrings := by
    rw [← Text.staysQuoted_iff (by decide)]
    decide
  have closed : Text.ClosedByLast '"' "say \\\"hi\\\"".toList := by
    rw [← Text.staysQuoted_iff (by decide)]
    decide
  have merged : Quotation.valueOf '"' (Text.unescape twoStrings) = .str twoStrings := by
    decide +kernel
  have read : Quotation.valueOf '"' (Text.unescape "say \\\"hi\\\"".toList) =
      .str "say \"hi\"".toList := by decide +kernel
  exact ⟨quote, rfl, two.1.trans merged, early, by decide +kernel, closed, said.1.trans read⟩

/-- Two strings with a comma between them are read as one. -/
theorem exists_quotation_merged :
    ¬ ∀ (types : Types) (quote : Char) (body : Text), Bracket.isQuote quote = true →
      decode types (Text.quotation quote body) =
        Quotation.valueOf quote (Text.unescape body) →
      Bracket.split ',' (Text.quotation quote body) = some [Text.quotation quote body] ∧
        Text.QuotesHidden quote body := by
  intro h
  have quote : Bracket.isQuote '"' = true := by decide
  have merged : decode .characters (Text.quotation '"' twoStrings) =
      Quotation.valueOf '"' (Text.unescape twoStrings) :=
    Quotation.decode_enclosed quote twoStrings .characters
  have one_piece := (h .characters '"' twoStrings quote merged).1
  have pieces : Bracket.split ',' (Text.quotation '"' twoStrings) =
      some ["\"a\"".toList, "\"b\"".toList] := by decide +kernel
  rw [pieces] at one_piece
  cases one_piece

end Literal

end ConstantDump
