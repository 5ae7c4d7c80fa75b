import ReleaseSearch.Plan

/-! The queries of a plan. Under one author a query stands for one title. A caller makes one search
for each query and each identifier. -/
namespace ReleaseSearch

theorem composeQuery_some (title : String) {author : String} (h : author ≠ "") :
    composeQuery title (some author) = title ++ " " ++ author := by
  rw [composeQuery, if_neg h]

theorem composeQuery_inj {author : Option String} {s t : String} :
    composeQuery s author = composeQuery t author ↔ s = t := by
  cases author with
  | none => exact Iff.rfl
  | some author =>
    by_cases h : author = ""
    · subst h; exact Iff.rfl
    · rw [composeQuery_some s h, composeQuery_some t h, String.append_left_inj,
        String.append_left_inj]

namespace Plan

theorem callCount_eq (plan : Plan) (strategy : Strategy) :
    plan.callCount strategy =
      plan.isbnCandidates.length + (plan.textQueries strategy).length := by
  cases strategy with
  | expanded => rw [callCount, textQueries, List.length_map]
  | reduced => rw [callCount, textQueries, List.length_map]

end Plan

end ReleaseSearch
