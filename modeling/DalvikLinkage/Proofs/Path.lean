import DalvikLinkage.Path
import DalvikLinkage.Proofs.Text.Reading

/-!
# Joining a name to a path

What a path means is read off its start and its parts. A name without separators becomes the last
part when it is joined to a path, and the start stays what it was, so joining adds the component
that the name stands for. The name of a file stands for itself; an empty name and `.` stand for no
component, and `..` for the parent.

Results:
* `components_append`: the parts behind a separator;
* `components_join`, `components_join_fileName`: what a name adds that is joined to a path;
* `isFileName_iff`, `components_join_ne`: the names that are no names of files, and lead to none.
-/
namespace DalvikLinkage.Path

/-- The name of a file in a directory: a name that is neither the directory nor its parent. -/
structure IsFileName (name : String) : Prop where
  nonempty : name ≠ ""
  not_current : name ≠ "."
  not_parent : name ≠ ".."
  no_separator : '/' ∉ name.toList

variable {base right : List Char} {name : String} {p : Path}

theorem start_append (h : base ≠ []) (right : List Char) :
    (Path.mk (String.ofList (base ++ '/' :: right))).start =
      (Path.mk (String.ofList base)).start := by
  unfold start
  simp only [String.toList_ofList]
  rcases base with _ | ⟨a, _ | ⟨b, rest⟩⟩
  · exact absurd rfl h
  · by_cases ha : a = '.'
    · subst ha; rfl
    · by_cases hr : a = '/'
      · subst hr; rfl
      · simp [ha, hr]
  · by_cases ha : a = '.'
    · subst ha
      by_cases hb : b = '/'
      · subst hb; rfl
      · simp [hb]
    · by_cases hr : a = '/'
      · subst hr; rfl
      · simp [ha, hr]

theorem length_start_le (p : Path) : p.start.length ≤ p.text.toList.length := by
  unfold start
  split <;> simp [*]

theorem parts_append (h : base ≠ []) (right : List Char) :
    (Path.mk (String.ofList (base ++ '/' :: right))).parts =
      (Path.mk (String.ofList base)).parts ++ Text.pieces isSeparator right := by
  have hle := length_start_le (Path.mk (String.ofList base))
  rw [String.toList_ofList] at hle
  rw [parts, parts, start_append h, String.toList_ofList, String.toList_ofList,
    List.drop_append_of_le_length hle, Text.pieces_append_cons rfl]

theorem components_append (h : base ≠ []) (right : List Char) :
    (Path.mk (String.ofList (base ++ '/' :: right))).components =
      (Path.mk (String.ofList base)).components ++
        (Text.pieces isSeparator right).filterMap Component.ofPart? := by
  rw [components, components, start_append h, parts_append h, List.filterMap_append]
  split <;> rfl

theorem components_root (right : List Char) :
    (Path.mk (String.ofList ('/' :: right))).components =
      .root :: (Text.pieces isSeparator right).filterMap Component.ofPart? := by
  rw [components, parts, start, String.toList_ofList]
  rfl

theorem pieces_of_notMem (h : '/' ∉ right) : Text.pieces isSeparator right = [right] :=
  Text.pieces_of_notMem h

theorem join_of_notMem (h : '/' ∉ name.toList) : p.join name =
    if p.text.toList = [] ∨ p.text.toList.getLast? = some '/' then ⟨p.text ++ name⟩
    else ⟨p.text ++ "/" ++ name⟩ := by
  rw [join, if_neg fun hhead => h (List.mem_of_head? hhead)]

/-- A name that is joined to a path adds what it stands for as a part. -/
theorem components_join (hp : p.text ≠ "") (h : '/' ∉ name.toList) :
    (p.join name).components = p.components ++ (Component.ofPart? name.toList).toList := by
  have hparts : (Text.pieces isSeparator name.toList).filterMap Component.ofPart? =
      (Component.ofPart? name.toList).toList := by
    rw [pieces_of_notMem h]
    cases hpart : Component.ofPart? name.toList <;> simp [hpart]
  obtain ⟨text⟩ := p
  obtain ⟨cs, rfl⟩ : ∃ cs, text = String.ofList cs := ⟨text.toList, String.ofList_toList.symm⟩
  have hcs : cs ≠ [] := by
    rintro rfl
    exact hp rfl
  rw [join_of_notMem h]
  dsimp only
  rw [String.toList_ofList]
  by_cases hlast : cs.getLast? = some '/'
  · -- The separator is there already.
    obtain ⟨base, rfl⟩ := List.getLast?_eq_some_iff.1 hlast
    have htext : String.ofList (base ++ ['/']) ++ name =
        String.ofList (base ++ '/' :: name.toList) := by
      rw [← String.toList_inj]
      simp
    rw [if_pos (.inr hlast), htext]
    by_cases hbase : base = []
    · subst hbase
      rw [List.nil_append, List.nil_append, components_root, components_root, hparts]
      rfl
    · rw [components_append hbase, components_append hbase, hparts, List.append_assoc]
      rfl
  · have htext : String.ofList cs ++ "/" ++ name = String.ofList (cs ++ '/' :: name.toList) := by
      rw [← String.toList_inj]
      simp
    rw [if_neg (by simp [hcs, hlast]), htext, components_append hcs, hparts]

theorem IsFileName.ofPart? (h : IsFileName name) :
    Component.ofPart? name.toList = some (.name name) := by
  have hne (other : String) (hother : name ≠ other) : name.toList ≠ other.toList := fun he =>
    hother (String.toList_inj.1 he)
  have hempty : name.toList ≠ [] := hne "" h.nonempty
  have hcurrent : name.toList ≠ ['.'] := hne "." h.not_current
  have hparent : name.toList ≠ ['.', '.'] := hne ".." h.not_parent
  rw [Component.ofPart?, if_neg (not_or.2 ⟨hempty, hcurrent⟩), if_neg hparent, String.ofList_toList]

theorem IsFileName.start_eq (h : IsFileName name) : (Path.mk name).start = [] := by
  unfold start
  split
  · next hname => exact absurd (by simp [hname]) h.no_separator
  · next hname => exact absurd (String.toList_inj.1 hname) h.not_current
  · next hname => exact absurd (by simp [hname]) h.no_separator
  · rfl

theorem IsFileName.components_eq (h : IsFileName name) :
    (Path.mk name).components = [.name name] := by
  rw [components, parts, h.start_eq, List.length_nil, List.drop_zero,
    pieces_of_notMem h.no_separator]
  simp [h.ofPart?]

/-- **A file name that is joined to a directory leads one step down.** -/
theorem components_join_fileName (h : IsFileName name) (p : Path) :
    (p.join name).components = p.components ++ [.name name] := by
  by_cases hp : p.text = ""
  · obtain ⟨text⟩ := p
    obtain rfl : text = "" := hp
    rw [join_of_notMem h.no_separator, if_pos (.inl rfl), String.empty_append, h.components_eq]
    rfl
  · rw [components_join hp h.no_separator, h.ofPart?]
    rfl

theorem isFileName_iff (h : '/' ∉ name.toList) : IsFileName name ↔ name ∉ ["", ".", ".."] := by
  simp only [List.mem_cons, List.not_mem_nil, or_false, not_or]
  constructor
  · intro ⟨hempty, hcurrent, hparent, _⟩
    exact ⟨hempty, hcurrent, hparent⟩
  · intro ⟨hempty, hcurrent, hparent⟩
    exact ⟨hempty, hcurrent, hparent, h⟩

/-- Every other name leads to the directory itself or to its parent. -/
theorem components_join_ne (h : name ∈ ["", ".", ".."]) (p : Path) (file : String) :
    (p.join name).components ≠ p.components ++ [.name file] := by
  simp only [List.mem_cons, List.not_mem_nil, or_false] at h
  by_cases hp : p.text = ""
  · obtain ⟨text⟩ := p
    obtain rfl : text = "" := hp
    rcases h with rfl | rfl | rfl
    · have hjoin : (join ⟨""⟩ "").components = [] := rfl
      simp [hjoin]
    · have hjoin : (join ⟨""⟩ ".").components = [.current] := rfl
      have hnone : (Path.mk "").components = [] := rfl
      simp [hjoin, hnone]
    · have hjoin : (join ⟨""⟩ "..").components = [.parent] := rfl
      have hnone : (Path.mk "").components = [] := rfl
      simp [hjoin, hnone]
  · have hseparator : '/' ∉ name.toList := by
      rcases h with rfl | rfl | rfl <;> decide
    rw [components_join hp hseparator, Ne, List.append_cancel_left_eq]
    rcases h with rfl | rfl | rfl <;> simp [Component.ofPart?]

end DalvikLinkage.Path
