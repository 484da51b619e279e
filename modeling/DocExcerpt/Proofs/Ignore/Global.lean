import DocExcerpt.Ignore.Global
import DocExcerpt.Proofs.Fallible
/-!
# The file of rules for every repository

What a settings file sets the path to (`GlobalRules.setting?_eq_some`), and that nothing is said of an entry where the
file at the path is not there (`GlobalRules.decide?_eq_none`).
-/
namespace DocExcerpt
namespace GlobalRules

variable {indent name left right value rest : Text}

theorem afterBlanks_append (h : ∀ c ∈ indent, isBlank c = true) (t : Text) :
    afterBlanks (indent ++ t) = afterBlanks t := List.dropWhile_append_of_pos h

theorem afterBlanks_cons {c : Char} (h : isBlank c = false) (t : Text) : afterBlanks (c :: t) = c :: t :=
  List.dropWhile_cons_of_neg (by simp [h])

theorem endsValue_cons {c : Char} (hblank : isBlank c = false) (hquote : c ≠ '"') (t : Text) :
    endsValue (c :: t) = false := by
  have hend : endsLine (c :: t) = false := by simp [endsLine, afterBlanks_cons hblank, hblank]
  simp [endsValue, hend, afterBlanks_cons hblank, hquote]

/-- A value without blanks and quotes is read to its end. -/
theorem value?_append (hne : value ≠ []) (hvalue : ∀ c ∈ value, isBlank c = false ∧ c ≠ '"')
    (hrest : endsValue rest = true) : value? (value ++ rest) = some value := by
  induction value with
  | nil => exact absurd rfl hne
  | cons c cs ih =>
    obtain ⟨⟨hblank, -⟩, hcs⟩ := List.forall_mem_cons.1 hvalue
    rw [List.cons_append, value?, if_neg (by simp [hblank])]
    cases cs with
    | nil => rw [List.nil_append, if_pos hrest]
    | cons d ds =>
      obtain ⟨⟨hd, hquote⟩, -⟩ := List.forall_mem_cons.1 hcs
      rw [ih (List.cons_ne_nil d ds) hcs, List.cons_append, if_neg (by simp [endsValue_cons hd hquote])]
      rfl

/-- A blank is no letter. -/
theorem toLower_of_isBlank {c : Char} (h : isBlank c = true) : c.toLower = c := by
  have hsmall : c.toNat ≤ 32 := by
    simp only [isBlank, Bool.or_eq_true, beq_iff_eq, Bool.and_eq_true, decide_eq_true_eq] at h
    rcases h with rfl | h
    · exact Nat.le_refl 32
    · omega
  have hletter : ¬(c.val ≥ 'A'.val ∧ c.val ≤ 'Z'.val) := by
    rintro ⟨hfirst, -⟩
    have hlarge : 65 ≤ c.toNat := UInt32.le_iff_toNat_le.1 hfirst
    omega
  exact dif_neg hletter

/-- **A plain setting gives its value**: the name in capitals or not, and blanks around both. -/
theorem setting?_eq_some (hindent : ∀ c ∈ indent, isBlank c = true) (hname : Text.asciiLower name = key)
    (hleft : ∀ c ∈ left, isBlank c = true) (hright : ∀ c ∈ right, isBlank c = true) (hne : value ≠ [])
    (hvalue : ∀ c ∈ value, isBlank c = false ∧ c ≠ '"') (hrest : endsValue rest = true) :
    setting? (indent ++ (name ++ (left ++ '=' :: (right ++ (value ++ rest))))) = some value := by
  have hlength : key.length = name.length := by rw [← hname, Text.asciiLower, List.length_map]
  have hstart : afterBlanks (name ++ (left ++ '=' :: (right ++ (value ++ rest)))) =
      name ++ (left ++ '=' :: (right ++ (value ++ rest))) := by
    cases name with
    | nil => cases hlength
    | cons c cs =>
      refine afterBlanks_cons (Bool.eq_false_iff.2 (fun hblank => ?_)) _
      have hhead : c.toLower = 'e' := (List.cons.inj hname).1
      rw [toLower_of_isBlank hblank] at hhead
      rw [hhead] at hblank
      revert hblank
      decide
  have hread := value?_append hne hvalue hrest
  obtain ⟨c, cs, rfl⟩ := List.exists_cons_of_ne_nil hne
  obtain ⟨hblank, hquote⟩ := hvalue c List.mem_cons_self
  have hplain : afterBlanks (right ++ (c :: cs ++ rest)) = c :: (cs ++ rest) := by
    rw [afterBlanks_append hright, List.cons_append, afterBlanks_cons hblank]
  simp only [setting?, afterBlanks_append hindent, hstart, hlength, List.take_left, List.drop_left, hname, if_pos,
    afterBlanks_append hleft, afterBlanks_cons (show isBlank '=' = false by decide), hplain]
  split
  · next heq => exact absurd (List.cons.inj heq).1 hquote
  · exact hread

example : firstSetting? true "[core]\n\tExcludesFile = \"~/rules\"\n".toList = some "~/rules".toList := by decide

/-- **No rules for every repository**: the file of them is not there. -/
def IsAbsent (s : Storage) : Prop := ∀ path ∈ path? s, ∀ bytes, s.read path ≠ .ok bytes

theorem decide?_eq_none {s : Storage} (h : IsAbsent s) (path : Path) (isDirectory : Bool) :
    (ofStorage s).decide? path isDirectory = none := by
  have hbytes : (path? s).bind (fun p => (s.read p).toOption) = none := by
    refine Option.bind_eq_none_iff.2 (fun p hp => Option.eq_none_iff_forall_not_mem.2 (fun bytes hbytes => ?_))
    exact h p hp bytes (toOption_eq_some_iff.1 hbytes)
  have hrules : (ofStorage s).rules = [] := by rw [ofStorage, hbytes, Option.map_none, Option.getD_none]
  rw [decide?, hrules]
  rfl

end GlobalRules
end DocExcerpt
