import DocExcerpt.DocComment
/-!
# The tags of a file

The tags of a source file are found on its rows from the first one down, at most one on each
(`DocComment.pairwise_line_requests`), so no tag is found twice.
-/
namespace DocExcerpt
namespace DocComment

theorem mem_requests {tag content : Text} {r : Request} :
    r ∈ requests tag content ↔
      ∃ body, (some body, r.line) ∈ (bodies (Text.rows content)).zipIdx 1 ∧ tagValue? tag body = some r.value := by
  simp only [requests, List.mem_filterMap, Prod.exists]
  constructor
  · rintro ⟨body?, line, hmem, heq⟩
    obtain ⟨value, hvalue, rfl⟩ := Option.map_eq_some_iff.1 heq
    obtain ⟨body, rfl, hvalue⟩ := Option.bind_eq_some_iff.1 hvalue
    exact ⟨body, hmem, hvalue⟩
  · rintro ⟨body, hmem, hvalue⟩
    exact ⟨_, _, hmem, by simp [hvalue]⟩

/-- **Tags are found from the first row down, at most one on a row.** -/
theorem pairwise_line_requests (tag content : Text) : (requests tag content).Pairwise (·.line < ·.line) := by
  have hrows : ((bodies (Text.rows content)).zipIdx 1).Pairwise (fun row row' => row.2 < row'.2) := by
    rw [← List.pairwise_map, List.zipIdx_map_snd]
    exact List.pairwise_lt_range'
  rw [requests, List.pairwise_filterMap]
  refine hrows.imp (fun {row row'} hlt r hr r' hr' => ?_)
  obtain ⟨_, -, rfl⟩ := Option.map_eq_some_iff.1 hr
  obtain ⟨_, -, rfl⟩ := Option.map_eq_some_iff.1 hr'
  exact hlt

theorem nodup_requests (tag content : Text) : (requests tag content).Nodup := by
  refine (pairwise_line_requests tag content).imp (fun {r r'} hlt heq => ?_)
  rw [heq] at hlt
  exact Nat.lt_irrefl _ hlt

end DocComment
end DocExcerpt
