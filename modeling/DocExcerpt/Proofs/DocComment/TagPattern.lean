import DocExcerpt.Proofs.DocComment.Requests
import DocExcerpt.Proofs.Text.Pattern
import DocExcerpt.Proofs.Text.Trim
/-!
# Tags as words

A tag counts where it stands as a word of its own, and its value is the text after the first such place
(`DocComment.tagValue?_eq_some_iff`).  Said as a pattern (`DocComment.tagPattern`), a tag has a value that a group
takes between blanks; which of its occurrences a search finds, and how much the group takes, comes to the same
(`DocComment.tagPattern_finds_first_word`).
-/
namespace DocExcerpt
namespace DocComment

open Pattern (Way find? findFrom?)

/-- **The tag as a word of its own** in a text: the text or a blank stands before it, and the end or a blank after
it. -/
structure IsWord (tag body before after : Text) : Prop where
  eq : body = before ++ tag ++ after
  starts : ∀ c ∈ before.getLast?, isBlank c = true
  ends : ∀ c ∈ after.head?, isBlank c = true

/-- **The first occurrence of the tag as a word of its own.** -/
structure IsFirstWord (tag body before after : Text) : Prop extends IsWord tag body before after where
  le : ∀ before' after', IsWord tag body before' after' → before.length ≤ before'.length

/-- **The value of a tag in a text**: what follows its first occurrence as a word, trimmed, if there is one. -/
inductive HasValue (tag body : Text) : Option Text → Prop where
  | found {before after : Text} (h : IsFirstWord tag body before after) : HasValue tag body (some (Text.trim after))
  | absent (h : ∀ before after, ¬IsWord tag body before after) : HasValue tag body none

variable {tag body before after passed t : Text} {atStart : Bool}

/-! ## The first word -/

theorem endsWord_iff : endsWord t = true ↔ ∀ c ∈ t.head?, isBlank c = true := by
  cases t <;> simp [endsWord]

theorem IsFirstWord.unique {before' after' : Text} (h : IsFirstWord tag body before after)
    (h' : IsFirstWord tag body before' after') : before = before' ∧ after = after' := by
  have hlength := Nat.le_antisymm (h.le _ _ h'.toIsWord) (h'.le _ _ h.toIsWord)
  have heq := h.eq.symm.trans h'.eq
  rw [List.append_assoc, List.append_assoc] at heq
  obtain ⟨hbefore, hafter⟩ := List.append_inj heq hlength
  exact ⟨hbefore, List.append_cancel_left hafter⟩

/-- The value of a tag that stands at the start of a text as a word of its own. -/
def wordValue? (tag t : Text) : Option Text := ((Text.after? tag t).filter endsWord).map Text.trim

theorem wordValue?_eq_some_iff {value : Text} :
    wordValue? tag t = some value ↔ ∃ rest, t = tag ++ rest ∧ endsWord rest = true ∧ Text.trim rest = value := by
  simp only [wordValue?, Option.map_eq_some_iff, Option.filter_eq_some_iff, Text.after?_eq_some_iff, and_assoc]

/-- The values of a text are looked for at its start first. -/
theorem tagValueFrom?_eq :
    tagValueFrom? tag atStart t =
      (if atStart then wordValue? tag t else none).or
        (match t with
        | [] => none
        | c :: cs => tagValueFrom? tag (isBlank c) cs) := by
  rw [tagValueFrom?.eq_def, wordValue?]
  cases atStart with
  | false => rfl
  | true =>
    simp only [if_true]
    cases (Text.after? tag t).filter endsWord <;> rfl

theorem tagValueFrom?_eq_or :
    tagValueFrom? tag atStart t = (if atStart then wordValue? tag t else none).or (tagValueFrom? tag false t) := by
  cases atStart with
  | false => rfl
  | true =>
    rw [tagValueFrom?_eq]
    conv => rhs; rw [tagValueFrom?_eq]
    rfl

/-- No word starts before the place that is reached, and none at it when the tag has no value there. -/
theorem IsWord.lt_length (h : IsWord tag (passed ++ t) before after)
    (hstart : atStart = true ↔ ∀ c ∈ passed.getLast?, isBlank c = true)
    (hno : (if atStart then wordValue? tag t else none) = none) (hle : passed.length ≤ before.length) :
    passed.length < before.length := by
  refine Nat.lt_of_le_of_ne hle (fun hlength => ?_)
  have heq := h.eq
  rw [List.append_assoc] at heq
  obtain ⟨rfl, rfl⟩ := List.append_inj heq hlength
  rw [if_pos (hstart.2 h.starts)] at hno
  cases hno.symm.trans (wordValue?_eq_some_iff.2 ⟨after, rfl, endsWord_iff.2 h.ends, rfl⟩)

theorem hasValue_of_wordValue? {value : Text} (hstart : atStart = true ↔ ∀ c ∈ passed.getLast?, isBlank c = true)
    (hpassed : ∀ before after, IsWord tag (passed ++ t) before after → passed.length ≤ before.length)
    (hhere : (if atStart then wordValue? tag t else none) = some value) : HasValue tag (passed ++ t) (some value) := by
  obtain ⟨hatStart, hvalue⟩ := Option.ite_none_right_eq_some.1 hhere
  obtain ⟨rest, rfl, hends, rfl⟩ := wordValue?_eq_some_iff.1 hvalue
  exact .found ⟨⟨(List.append_assoc ..).symm, hstart.1 hatStart, endsWord_iff.1 hends⟩, hpassed⟩

/-- What is found from a place on, when no word stands before it. -/
theorem hasValue_tagValueFrom? (hstart : atStart = true ↔ ∀ c ∈ passed.getLast?, isBlank c = true)
    (hpassed : ∀ before after, IsWord tag (passed ++ t) before after → passed.length ≤ before.length) :
    HasValue tag (passed ++ t) (tagValueFrom? tag atStart t) := by
  induction t generalizing passed atStart with
  | nil =>
    rw [tagValueFrom?_eq]
    cases hhere : if atStart then wordValue? tag [] else none with
    | some value => exact hasValue_of_wordValue? hstart hpassed hhere
    | none =>
      refine .absent (fun before after hword => ?_)
      have hlt := hword.lt_length hstart hhere (hpassed before after hword)
      have hlength := congrArg List.length hword.eq
      simp only [List.length_append, List.length_nil] at hlength
      omega
  | cons c t ih =>
    rw [tagValueFrom?_eq]
    cases hhere : if atStart then wordValue? tag (c :: t) else none with
    | some value => exact hasValue_of_wordValue? hstart hpassed hhere
    | none =>
      have hsplit : passed ++ c :: t = (passed ++ [c]) ++ t := by simp
      rw [hsplit] at hpassed ⊢
      refine ih (by simp) (fun before after hword => ?_)
      rw [List.length_append, List.length_singleton]
      exact (hsplit ▸ hword).lt_length hstart hhere (hpassed before after hword)

theorem hasValue_tagValue? (tag body : Text) : HasValue tag body (tagValue? tag body) := by
  have h : HasValue tag ([] ++ body) (tagValueFrom? tag true body) :=
    hasValue_tagValueFrom? (by simp) (fun _ _ _ => Nat.zero_le _)
  exact h

theorem HasValue.unique {value? value?' : Option Text} (h : HasValue tag body value?)
    (h' : HasValue tag body value?') : value? = value?' := by
  cases h with
  | found hfirst =>
    cases h' with
    | found hfirst' => rw [(hfirst.unique hfirst').2]
    | absent hno => exact absurd hfirst.toIsWord (hno _ _)
  | absent hno =>
    cases h' with
    | found hfirst => exact absurd hfirst.toIsWord (hno _ _)
    | absent _ => rfl

theorem tagValue?_eq_iff {value? : Option Text} : tagValue? tag body = value? ↔ HasValue tag body value? :=
  ⟨fun h => h ▸ hasValue_tagValue? tag body, (hasValue_tagValue? tag body).unique⟩

/-- **The value of a tag** is the text after its first occurrence as a word. -/
theorem tagValue?_eq_some_iff {value : Text} :
    tagValue? tag body = some value ↔ ∃ before after, IsFirstWord tag body before after ∧ Text.trim after = value := by
  rw [tagValue?_eq_iff]
  constructor
  · rintro (h | _)
    exact ⟨_, _, h, rfl⟩
  · rintro ⟨before, after, h, rfl⟩
    exact .found h

/-- The value of a tag that was found has no blanks around it. -/
theorem trim_value_of_mem_requests {content : Text} {r : Request} (h : r ∈ requests tag content) :
    Text.trim r.value = r.value := by
  obtain ⟨body, -, hvalue⟩ := mem_requests.1 h
  obtain ⟨before, after, -, htrim⟩ := tagValue?_eq_some_iff.1 hvalue
  rw [← htrim, Text.trim_trim]

theorem isSome_tagValue?_iff : (tagValue? tag body).isSome = true ↔ ∃ before after, IsWord tag body before after := by
  cases htag : tagValue? tag body with
  | some value =>
    obtain ⟨before, after, hfirst, -⟩ := tagValue?_eq_some_iff.1 htag
    exact iff_of_true rfl ⟨before, after, hfirst.toIsWord⟩
  | none =>
    cases tagValue?_eq_iff.1 htag with
    | absent hno => exact iff_of_false (by simp) (fun ⟨before, after, hword⟩ => hno before after hword)

/-! ## The pattern of a tag -/

def blanks : Pattern := .many isBlank false

/-- The rest of a line, as little of it as will do. -/
def restOfLine : Pattern := .group (.many (fun c => !(c == '\n')) true)

def valueAfterBlanks : Pattern := .both (.both (.char isBlank) blanks) restOfLine

def blanksToEnd : Pattern := .both blanks .stop

/-- A value after blanks if there is one, then blanks up to the end. -/
def valuePattern : Pattern := .both (.either valueAfterBlanks (.text [])) blanksToEnd

def wordPattern (tag : Text) : Pattern := .both (.text tag) valuePattern

/-- **The pattern of a tag**: at the start or after a blank, the tag, then its value. -/
def tagPattern (tag : Text) : Pattern := .both (.either .start (.char isBlank)) (wordPattern tag)

/-- The value that a match gives. -/
def valueOf (way : Way) : Text := Text.trim (way.group?.getD [])

theorem mem_ways_blanks_iff {way : Way} :
    way ∈ blanks.ways atStart t ↔
      ∃ front rest, way = ⟨front, rest, none⟩ ∧ t = front ++ rest ∧ Text.IsBlankText front :=
  Pattern.mem_ways_many_iff

theorem mem_ways_restOfLine_iff {way : Way} :
    way ∈ restOfLine.ways atStart t ↔
      ∃ value rest, way = ⟨value, rest, some value⟩ ∧ t = value ++ rest ∧ '\n' ∉ value := by
  rw [restOfLine, Pattern.mem_ways_group_iff]
  simp only [Pattern.mem_ways_many_iff]
  constructor
  · rintro ⟨_, ⟨value, rest, rfl, ht, hall⟩, rfl⟩
    exact ⟨value, rest, rfl, ht, fun hmem => by simpa using hall _ hmem⟩
  · rintro ⟨value, rest, rfl, ht, hno⟩
    refine ⟨_, ⟨value, rest, rfl, ht, fun c hc => ?_⟩, rfl⟩
    simpa using ne_of_mem_of_not_mem hc hno

theorem mem_ways_blanksToEnd_iff {way : Way} :
    way ∈ blanksToEnd.ways atStart t ↔ Text.IsBlankText t ∧ way = ⟨t, [], none⟩ := by
  simp only [blanksToEnd, Pattern.mem_ways_both_iff, mem_ways_blanks_iff, Pattern.mem_ways_stop_iff]
  constructor
  · rintro ⟨_, ⟨front, rest, rfl, rfl, hblank⟩, _, ⟨rfl, rfl⟩, rfl⟩
    simpa [Way.andThen] using hblank
  · rintro ⟨hblank, rfl⟩
    exact ⟨_, ⟨t, [], rfl, (List.append_nil t).symm, hblank⟩, _, ⟨rfl, rfl⟩, by simp [Way.andThen]⟩

/-- A value after blanks, as the group can take it. -/
theorem mem_ways_valueAfterBlanks_iff {way : Way} :
    way ∈ valueAfterBlanks.ways atStart t ↔
      ∃ c left value rest, t = c :: left ++ value ++ rest ∧ isBlank c = true ∧ Text.IsBlankText left ∧
        '\n' ∉ value ∧ way = ⟨c :: left ++ value, rest, some value⟩ := by
  simp only [valueAfterBlanks, Pattern.mem_ways_both_iff, Pattern.mem_ways_char_iff, mem_ways_blanks_iff,
    mem_ways_restOfLine_iff]
  constructor
  · rintro ⟨_, ⟨_, ⟨c, _, rfl, hc, rfl⟩, _, ⟨left, _, rfl, rfl, hleft⟩, rfl⟩, _, ⟨value, rest, rfl, rfl, hvalue⟩, rfl⟩
    exact ⟨c, left, value, rest, by simp, hc, hleft, hvalue, by simp [Way.andThen]⟩
  · rintro ⟨c, left, value, rest, rfl, hc, hleft, hvalue, rfl⟩
    exact ⟨_, ⟨_, ⟨c, _, rfl, hc, rfl⟩, _, ⟨left, _, rfl, List.append_assoc .., hleft⟩, rfl⟩, _,
      ⟨value, rest, rfl, rfl, hvalue⟩, by simp [Way.andThen]⟩

/-- However the group and the blanks around it share a text, its trimmed value is that of the whole. -/
theorem valueOf_of_mem_ways {way : Way} (h : way ∈ valuePattern.ways atStart t) :
    endsWord t = true ∧ valueOf way = Text.trim t := by
  simp only [valuePattern, Pattern.mem_ways_both_iff, Pattern.mem_ways_either_iff, mem_ways_blanksToEnd_iff,
    mem_ways_valueAfterBlanks_iff] at h
  obtain ⟨_, ⟨c, left, value, rest, rfl, hc, hleft, -, rfl⟩ | hnil, _, ⟨hrest, rfl⟩, rfl⟩ := h
  · have hblank : Text.IsBlankText (c :: left) := List.forall_mem_cons.2 ⟨hc, hleft⟩
    exact ⟨hc, (Text.trim_append hblank hrest).symm⟩
  · obtain rfl : _ = Way.mk [] t none := by simpa [Pattern.ways, Text.after?] using hnil
    refine ⟨?_, (Text.trim_eq_nil_iff.2 hrest).symm⟩
    cases t with
    | nil => rfl
    | cons c t => exact hrest c List.mem_cons_self

theorem ways_valuePattern_ne_nil (hline : '\n' ∉ t) (h : endsWord t = true) : valuePattern.ways atStart t ≠ [] := by
  cases t with
  | nil => simp [valuePattern, valueAfterBlanks, blanksToEnd, blanks, Pattern.ways, Text.after?, Pattern.runs]
  | cons c t =>
    have hvalue : Way.mk (c :: t) [] (some t) ∈ valueAfterBlanks.ways atStart (c :: t) :=
      mem_ways_valueAfterBlanks_iff.2 ⟨c, [], t, [], by simp, h, Text.isBlankText_nil,
        fun hmem => hline (List.mem_cons_of_mem _ hmem), rfl⟩
    exact List.ne_nil_of_mem (Pattern.mem_ways_both_iff.2 ⟨_, Pattern.mem_ways_either_iff.2 (.inl hvalue), _,
      mem_ways_blanksToEnd_iff.2 ⟨Text.isBlankText_nil, rfl⟩, rfl⟩)

theorem head?_valuePattern (hline : '\n' ∉ t) :
    (valuePattern.ways atStart t).head?.map valueOf = if endsWord t then some (Text.trim t) else none := by
  cases hways : valuePattern.ways atStart t with
  | nil =>
    rw [if_neg (fun h => ways_valuePattern_ne_nil hline h hways)]
    rfl
  | cons way others =>
    obtain ⟨hends, hvalue⟩ := valueOf_of_mem_ways (hways ▸ List.mem_cons_self)
    rw [if_pos hends, List.head?_cons, Option.map_some, hvalue]

/-- What is taken before the value changes nothing about it. -/
theorem map_valueOf_head?_andThen (taken rest : Text) (ways : List Way) :
    (ways.map (Way.andThen ⟨taken, rest, none⟩)).head?.map valueOf = ways.head?.map valueOf := by
  have hvalue : valueOf ∘ Way.andThen ⟨taken, rest, none⟩ = valueOf := by
    funext way
    simp [valueOf, Way.andThen]
  rw [List.head?_map, Option.map_map, hvalue]

theorem head?_wordPattern (hline : '\n' ∉ t) :
    ((wordPattern tag).ways atStart t).head?.map valueOf = wordValue? tag t := by
  rw [wordPattern, Pattern.ways, Pattern.ways, wordValue?]
  cases hafter : Text.after? tag t with
  | none => rfl
  | some rest =>
    rw [Text.after?_eq_some_iff.1 hafter] at hline
    have hrest : '\n' ∉ rest := fun hmem => hline (List.mem_append_right tag hmem)
    rw [Option.toList_some, List.map_singleton, List.flatMap_singleton, map_valueOf_head?_andThen,
      head?_valuePattern hrest, Option.filter_some]
    split <;> rfl

/-- At a place the pattern looks for the tag at it, and behind one blank. -/
theorem head?_tagPattern :
    '\n' ∉ t → ((tagPattern tag).ways atStart t).head?.map valueOf =
      (if atStart then wordValue? tag t else none).or
        (match t with
        | [] => none
        | c :: cs => if isBlank c then wordValue? tag cs else none) := by
  intro hline
  rw [tagPattern, Pattern.ways, Pattern.ways, List.flatMap_append, List.head?_append, Option.map_or]
  congr 1
  · rw [Pattern.ways]
    cases atStart with
    | false => rfl
    | true =>
      rw [if_pos rfl, if_pos rfl, List.flatMap_singleton, map_valueOf_head?_andThen, head?_wordPattern hline]
  · cases t with
    | nil => rfl
    | cons c cs =>
      dsimp only
      rw [Pattern.ways]
      by_cases hc : isBlank c = true
      · rw [if_pos hc, if_pos hc, List.flatMap_singleton, map_valueOf_head?_andThen,
          head?_wordPattern (fun hmem => hline (List.mem_cons_of_mem _ hmem))]
      · rw [if_neg hc, if_neg hc]
        rfl

/-- **What a search for the pattern finds** is the value of the tag. -/
theorem findFrom?_tagPattern (hline : '\n' ∉ t) :
    (findFrom? (tagPattern tag) atStart t).map valueOf = tagValueFrom? tag atStart t := by
  induction t generalizing atStart with
  | nil =>
    rw [findFrom?, head?_tagPattern hline, tagValueFrom?_eq]
  | cons c t ih =>
    have hrest : '\n' ∉ t := fun hmem => hline (List.mem_cons_of_mem _ hmem)
    rw [findFrom?, Option.orElse_eq_orElse, Option.orElse_eq_or, Option.map_or, head?_tagPattern hline, ih hrest,
      Option.or_assoc, ← tagValueFrom?_eq_or, ← tagValueFrom?_eq]

/-- **A tag is found where it stands as a word of its own**, and its value is the text after the first such place,
trimmed: so the pattern of the tag finds it in a line, and so it is recorded for the comment text of a file. -/
theorem tagPattern_finds_first_word (tag body : Text) (hline : '\n' ∉ body) :
    ((find? (tagPattern tag) body).isSome = true ↔ ∃ before after, IsWord tag body before after) ∧
      (∀ value, (find? (tagPattern tag) body).map valueOf = some value ↔
        ∃ before after, IsFirstWord tag body before after ∧ Text.trim after = value) ∧
      ∀ content line, (some body, line) ∈ (bodies (Text.rows content)).zipIdx 1 →
        ∀ value, ⟨line, value⟩ ∈ requests tag content ↔
          ∃ way, find? (tagPattern tag) body = some way ∧ valueOf way = value := by
  have hfind : (find? (tagPattern tag) body).map valueOf = tagValue? tag body := findFrom?_tagPattern hline
  refine ⟨?_, fun value => ?_, fun content line hbody value => ?_⟩
  · rw [← isSome_tagValue?_iff, ← hfind, Option.isSome_map]
  · rw [hfind, tagValue?_eq_some_iff]
  · rw [mem_requests, ← Option.map_eq_some_iff, hfind]
    constructor
    · rintro ⟨body', hbody', hvalue⟩
      rw [List.mem_zipIdx_iff_le_and_getElem?_sub] at hbody hbody'
      cases hbody.2.symm.trans hbody'.2
      exact hvalue
    · exact fun hvalue => ⟨body, hbody, hvalue⟩

/-- The tag in a longer word, and then twice on its own. -/
def repeatedTag : Text := " @a@a  @a\tb @a c ".toList

theorem tagPattern_finds_first_word_repeatedTag :
    '\n' ∉ repeatedTag ∧
      (∃ before after, IsFirstWord "@a".toList repeatedTag before after ∧ Text.trim after = "b @a c".toList) ∧
      ⟨1, "b @a c".toList⟩ ∈ requests "@a".toList ("///".toList ++ repeatedTag) := by
  have hline : '\n' ∉ repeatedTag := by decide
  obtain ⟨-, hfirst, hrequests⟩ := tagPattern_finds_first_word "@a".toList repeatedTag hline
  refine ⟨hline, (hfirst _).1 (by decide), (hrequests _ 1 (by decide) _).2 ?_⟩
  rw [← Option.map_eq_some_iff]
  decide

end DocComment
end DocExcerpt
