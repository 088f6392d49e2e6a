import FilterLang.Report
import FilterLang.Proofs.JsonText
import FilterLang.Proofs.Printing

/-! What reports tell. The report of a tree has a record for every node, and the kind of a literal
stands beside its value, so trees whose numbers are finite have the same report in either layout only
if they are the same tree. The report of a verdict tells whether the text is valid. -/
namespace FilterLang

/-! ### Trees -/

theorem LiteralKind.name_inj {k l : LiteralKind} : k.name = l.name ↔ k = l := by
  cases k <;> cases l <;> simp [name]

theorem Operator.name_inj {p q : Operator} : p.name = q.name ↔ p = q := by
  cases p <;> cases q <;> simp [name]

namespace Expr

theorem report_literal (l : Literal) : (literal l).report =
    .object [("kind", .string l.kind.name), ("type", .string "Literal"),
      ("value", l.reportValue)] := by
  simp only [report, Json.record, Json.insertField, List.foldl, String.reduceLT, String.reduceEq,
    reduceIte]

theorem report_binary (op : Operator) (l r : Expr) : (binary op l r).report =
    .object [("left", l.report), ("operator", .string op.name), ("right", r.report),
      ("type", .string "BinaryExpression")] := by
  simp only [report, Json.record, Json.insertField, List.foldl, String.reduceLT, String.reduceEq,
    reduceIte]

/-- Values of different kinds may be reported alike, but not beside their kinds. -/
theorem eq_of_reportValue {k l : Literal} (hk : ∀ x, k = .number x → x.isFinite)
    (hl : ∀ x, l = .number x → x.isFinite) (hkind : k.kind = l.kind)
    (hvalue : k.reportValue = l.reportValue) : k = l := by
  cases k <;> cases l <;> simp_all [Literal.kind, Literal.reportValue]

theorem report_inj {a b : Expr} (ha : ∀ x, .number x ∈ a.literals → x.isFinite)
    (hb : ∀ x, .number x ∈ b.literals → x.isFinite) : a.report = b.report ↔ a = b := by
  refine ⟨fun h => ?_, fun h => h ▸ rfl⟩
  induction a generalizing b with
  | literal k =>
    cases b with
    | literal l =>
      simp only [report_literal, Json.object.injEq, List.cons.injEq, Prod.mk.injEq,
        Json.string.injEq, true_and, and_true, LiteralKind.name_inj] at h
      rw [eq_of_reportValue (fun x hx => ha x (by simp [literals, hx]))
        (fun x hx => hb x (by simp [literals, hx])) h.1 h.2]
    | binary op l r => simp [report_literal, report_binary] at h
  | binary op l r ihl ihr =>
    cases b with
    | literal l => simp [report_literal, report_binary] at h
    | binary op' l' r' =>
      simp only [report_binary, Json.object.injEq, List.cons.injEq, Prod.mk.injEq,
        Json.string.injEq, true_and, and_true, Operator.name_inj] at h
      obtain ⟨hl, hop, hr⟩ := h
      rw [ihl (fun x hx => ha x (by simp [literals, hx]))
          (fun x hx => hb x (by simp [literals, hx])) hl, hop,
        ihr (fun x hx => ha x (by simp [literals, hx]))
          (fun x hx => hb x (by simp [literals, hx])) hr]

theorem isFinite_report {e : Expr} (h : ∀ x, .number x ∈ e.literals → x.isFinite) :
    e.report.IsFinite := by
  induction e with
  | literal l =>
    have hvalue : l.reportValue.IsFinite := by
      cases l with
      | number x =>
        have hx := h x (by simp [literals])
        rw [Literal.reportValue, if_pos hx]
        exact .number hx
      | string s | var s => exact .string s
      | boolean b => exact .bool b
    rw [report_literal]
    refine .object ?_
    simp [hvalue, Json.IsFinite.string]
  | binary op l r ihl ihr =>
    have hl := ihl fun x hx => h x (by simp [literals, hx])
    have hr := ihr fun x hx => h x (by simp [literals, hx])
    rw [report_binary]
    refine .object ?_
    simp [hl, hr, Json.IsFinite.string]

/-- Trees whose numbers are finite are reported by the same text only if they are the same, with the
same operators, the same literals of the same kinds and the same numbers to the sign of a zero. -/
theorem render_report_eq_iff {a b : Expr} (ha : ∀ x, .number x ∈ a.literals → x.isFinite)
    (hb : ∀ x, .number x ∈ b.literals → x.isFinite) (layout : Json.Layout) :
    a.report.render layout = b.report.render layout ↔ a = b :=
  ((isFinite_report ha).render_eq_iff (isFinite_report hb) layout).trans (report_inj ha hb)

/-- Two groupings of the same literals, a string and a name with the same text, which looks like the
end of a report, and zeros of both signs. -/
theorem render_report_ne_grouped :
    let zero (negative : Bool) := literal (.number (.signed negative ⟨0, by decide⟩))
    let quoted := literal (.string "\",\"type\":\"Literal\"\x7d\n")
    let name := literal (.var "\",\"type\":\"Literal\"\x7d\n")
    (binary .and (binary .and (zero false) quoted) name).report.render .pretty ≠
        (binary .and (zero false) (binary .and quoted name)).report.render .pretty ∧
      (binary .and (zero false) quoted).report.render .compact ≠
        (binary .and (zero false) name).report.render .compact ∧
      (binary .and (zero false) quoted).report.render .compact ≠
        (binary .and (zero true) quoted).report.render .compact := by
  intro zero quoted name
  have hfinite : ∀ e ∈ [binary .and (binary .and (zero false) quoted) name,
      binary .and (zero false) (binary .and quoted name), binary .and (zero false) quoted,
      binary .and (zero false) name, binary .and (zero true) quoted],
      ∀ x, .number x ∈ e.literals → x.isFinite := by
    simp [zero, quoted, name, literals, Binary64.isFinite, Magnitude.isFinite]
  refine ⟨?_, ?_, ?_⟩
  all_goals
    rw [Ne, render_report_eq_iff (hfinite _ (by simp)) (hfinite _ (by simp))]
    decide

end Expr

/-! ### Verdicts -/

/-- The value that an object has under the key. -/
def Json.field? (key : String) : Json → Option Json
  | .object fields => fields.lookup key
  | _ => none

theorem Verdict.report_valid (v : Verdict) :
    (Verdict.report v).field? "valid" = some (.bool v.isOk) := by
  cases v
  all_goals
    simp only [report, Json.record, Json.insertField, List.foldl, String.reduceLT, String.reduceEq,
      reduceIte]
    rfl

end FilterLang
