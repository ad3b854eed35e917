import QueryHarvest.Proofs.Session.Rendering
import QueryHarvest.Proofs.Value.Literals

/-! # Conditions told apart

A condition that excludes a list of values, or sets one value against its column, is rendered as the
literals of its values between texts that the column and the operator fix. So the fragment tells the
values as well as the literals do.
-/

namespace QueryHarvest.Sql.Operator

/-- Is a single value set against the column under the operator? It is but for ranges and null checks. -/
def setsAgainst : Operator → Bool
  | .between | .isNull | .isNotNull => false
  | _ => true

end QueryHarvest.Sql.Operator

namespace QueryHarvest.Session

open Sql Value

/-- The condition excludes some values, or sets a single one against its column. -/
def IsListed (c : Condition) : Prop :=
  c.operator = .notIn ∨ c.operator.setsAgainst ∧ c.values.length = 1

/-- What stands in front of the values of such a condition. -/
def listFront (column : String) : Operator → String
  | .notIn => column ++ " NOT IN ("
  | .compares comparison => column ++ " " ++ comparison.text ++ " "
  | .like => column ++ " " ++ Operator.like.text ++ " "
  | .ilike => column ++ " " ++ Operator.ilike.text ++ " "
  | _ => column ++ " = "

/-- What stands behind them. -/
def listBack : Operator → String
  | .notIn => ")"
  | _ => ""

theorem shownValues_of_isListed {c : Condition} (listed : IsListed c) : shownValues c = c.values := by
  rw [shownValues]
  split
  · next ranged =>
    rcases listed with negated | ⟨against, -⟩
    · cases negated.symm.trans ranged
    · rw [ranged] at against
      cases against
  · rfl

theorem conditionText_of_isListed {c : Condition} (listed : IsListed c) :
    conditionText c.column c.operator (c.values.map literalText) =
      listFront c.column c.operator ++ listText c.values ++ listBack c.operator := by
  obtain ⟨table, column, operator, values, fits⟩ := c
  rcases listed with negated | ⟨against, single⟩
  · cases negated
    rw [listText, literalTexts_eq]
    rfl
  · obtain ⟨v, rfl⟩ := List.length_eq_one_iff.mp single
    have alone : listText [v] = v.literalText := String.intercalate_singleton
    cases operator with
    | between | isNull | isNotNull => cases against
    | notIn =>
        rw [listText, literalTexts_eq]
        rfl
    | equals | isIn | anyOf | compares | like | ilike =>
        simp only [listBack, alone, String.append_empty]
        rfl

theorem renderCondition_of_isListed {c : Condition} (listed : IsListed c) {text : String} :
    renderCondition c = .ok text ↔ ∃ list, literalList c.values = .ok list ∧
      listFront c.column c.operator ++ list ++ listBack c.operator = text := by
  rw [renderCondition_eq_ok_iff, shownValues_of_isListed listed, conditionText_of_isListed listed,
    ← areWritable_iff]
  constructor
  · rintro ⟨writable, rfl⟩
    exact ⟨_, literalList_eq_ok_iff.mpr ⟨writable, rfl⟩, rfl⟩
  · rintro ⟨list, written, rfl⟩
    obtain ⟨writable, rfl⟩ := literalList_eq_ok_iff.mp written
    exact ⟨writable, rfl⟩

/-- Values whose texts hold no quote are told from their literals, in lists too, up to the kinds of
arrays. So are the values of conditions that exclude a list of them or set one against a column, under
the same operator and on the same column. -/
theorem renderings_tell_values :
    (∀ (v w : Value) (text : String), v.isQuoteFree → w.isQuoteFree → v.literal = .ok text →
      (w.literal = .ok text ↔ v.sameDocument w)) ∧
    (∀ (vs ws : List Value) (text : String), areQuoteFree vs → areQuoteFree ws →
      literalList vs = .ok text → (literalList ws = .ok text ↔ sameDocuments vs ws)) ∧
    ∀ (c d : Condition) (text : String), areQuoteFree c.values → areQuoteFree d.values →
      IsListed c → IsListed d → c.column = d.column → c.operator = d.operator →
      renderCondition c = .ok text →
      (renderCondition d = .ok text ↔ sameDocuments c.values d.values) := by
  refine ⟨fun v w text hv hw => literal_eq_ok_iff_same hv hw,
    fun vs ws text hv hw => literalList_eq_ok_iff_same hv hw, ?_⟩
  intro c d text hc hd listed listed' column operator rendered
  obtain ⟨list, written, rfl⟩ := (renderCondition_of_isListed listed).mp rendered
  rw [← literalList_eq_ok_iff_same hc hd written, renderCondition_of_isListed listed', column, operator]
  simp

/-- A text that holds a comma, a bracket and a keyword is told from an array of two, and so are the
conditions that exclude them. -/
theorem joined_texts_told_apart :
    let whole : Condition := ⟨none, "tags", .notIn, [.list [.text "a, NULL]"], .null], rfl⟩
    let parts : Condition := ⟨none, "tags", .notIn, [.list [.text "a", .null], .null], rfl⟩
    (literal (.list [.text "a, NULL]"]) = .ok "ARRAY['a, NULL]']" ∧
      literal (.list [.text "a", .null]) ≠ .ok "ARRAY['a, NULL]']") ∧
    (literalList whole.values = .ok "ARRAY['a, NULL]'], NULL" ∧
      literalList parts.values ≠ .ok "ARRAY['a, NULL]'], NULL") ∧
    renderCondition whole = .ok "tags NOT IN (ARRAY['a, NULL]'], NULL)" ∧
      renderCondition parts ≠ .ok "tags NOT IN (ARRAY['a, NULL]'], NULL)" := by
  intro whole parts
  obtain ⟨literals, lists, conditions⟩ := renderings_tell_values
  have apart : ¬ sameDocuments whole.values parts.values := by decide
  have one : literal (.list [.text "a, NULL]"]) = .ok "ARRAY['a, NULL]']" := by decide
  have all : literalList whole.values = .ok "ARRAY['a, NULL]'], NULL" := by decide
  have rendered : renderCondition whole = .ok "tags NOT IN (ARRAY['a, NULL]'], NULL)" := by decide
  exact ⟨⟨one, (literals _ _ _ rfl rfl one).not.mpr (by decide)⟩,
    ⟨all, (lists _ _ _ rfl rfl all).not.mpr apart⟩, rendered,
    (conditions whole parts _ rfl rfl (.inl rfl) (.inl rfl) rfl rfl rendered).not.mpr apart⟩

end QueryHarvest.Session
