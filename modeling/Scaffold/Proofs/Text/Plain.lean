import Mathlib.Tactic.SplitIfs
import Scaffold.Text.Words

/-!
# Plain text

The printable characters of ASCII are here called plain. Each of them is a cluster of its own
(`clusters_of_isPlain`), and what words are cut by can be read off the single characters: the
classes of their clusters are those of the characters (`isLowerCluster_singleton`,
`isUpperCluster_singleton`). Case mapping takes small letters to capitals and back
(`capitalWord_of_isLower`, `lower_of_isLower`).
-/

namespace Scaffold.Text

variable {c : Char} {cs word : List Char}

/-! ## Single characters -/

/-- `c` is a printable character of ASCII. -/
def isPlain (c : Char) : Bool :=
  0x20 ≤ c.toNat && c.toNat < 0x7F

/-- The plain characters are the printable ones of ASCII. -/
theorem isPlain_iff : isPlain c = true ↔ 0x20 ≤ c.toNat ∧ c.toNat < 0x7F := by
  simp [isPlain]

/-- What holds of all plain characters is checked one by one. -/
theorem forall_isPlain {p : Char → Prop}
    (h : ∀ n < 0x7F, isPlain (Char.ofNat n) = true → p (Char.ofNat n)) (hc : isPlain c = true) :
    p c := by
  have hrow := h c.toNat (isPlain_iff.mp hc).2
  rw [Char.ofNat_toNat] at hrow
  exact hrow hc

/-- The small letters by their codes. -/
theorem isLower_iff : c.isLower = true ↔ 0x61 ≤ c.toNat ∧ c.toNat ≤ 0x7A := by
  change (decide (c.val ≥ 'a'.val) && decide (c.val ≤ 'z'.val)) = true ↔ _
  simp [UInt32.le_iff_toNat_le, ← Char.toNat_val]

/-- The capital letters by their codes. -/
theorem isUpper_iff : c.isUpper = true ↔ 0x41 ≤ c.toNat ∧ c.toNat ≤ 0x5A := by
  change decide (c.val ≥ 'A'.val ∧ c.val ≤ 'Z'.val) = true ↔ _
  simp [UInt32.le_iff_toNat_le, ← Char.toNat_val]

/-- Small letters are plain. -/
theorem isPlain_of_isLower (h : c.isLower = true) : isPlain c = true := by
  rw [isLower_iff] at h
  rw [isPlain_iff]
  omega

/-- Capital letters are plain. -/
theorem isPlain_of_isUpper (h : c.isUpper = true) : isPlain c = true := by
  rw [isUpper_iff] at h
  rw [isPlain_iff]
  omega

/-- What holds of all small letters is checked one by one. -/
theorem forall_isLower {p : Char → Prop}
    (h : ∀ n < 0x7F, (Char.ofNat n).isLower = true → p (Char.ofNat n)) (hc : c.isLower = true) :
    p c :=
  forall_isPlain (p := fun c => c.isLower = true → p c) (fun n hn _ => h n hn)
    (isPlain_of_isLower hc) hc

/-- A small letter in upper case is a capital. -/
theorem isUpper_toUpper (hc : c.isLower = true) : c.toUpper.isUpper = true :=
  forall_isLower (p := fun c => c.toUpper.isUpper = true) (by decide) hc

/-- A plain character is a small cluster if it is a small letter. -/
theorem isLowerCluster_singleton (hc : isPlain c = true) : isLowerCluster [c] = c.isLower :=
  forall_isPlain (p := fun c => isLowerCluster [c] = c.isLower) (by decide +kernel) hc

/-- It is a capital cluster if it is a capital letter. -/
theorem isUpperCluster_singleton (hc : isPlain c = true) : isUpperCluster [c] = c.isUpper :=
  forall_isPlain (p := fun c => isUpperCluster [c] = c.isUpper) (by decide +kernel) hc

/-- No small letter is a capital. -/
theorem isUpper_of_isLower (hc : c.isLower = true) : isUpper c = false :=
  forall_isLower (p := fun c => isUpper c = false) (by decide) hc

/-- The capitals of ASCII are capitals of Unicode. -/
theorem isUpper_of_isUpper (hc : c.isUpper = true) : isUpper c = true :=
  forall_isPlain (p := fun c => c.isUpper = true → isUpper c = true) (by decide)
    (isPlain_of_isUpper hc) hc

/-! ## Case mapping of letters -/

/-- The upper case of a small letter is one capital. -/
theorem upperChar_of_isLower (hc : c.isLower = true) : upperChar c = [c.toUpper] :=
  forall_isLower (p := fun c => upperChar c = [c.toUpper]) (by decide +kernel) hc

/-- That capital is its own upper case. -/
theorem upperChar_toUpper (hc : c.isLower = true) : upperChar c.toUpper = [c.toUpper] :=
  forall_isLower (p := fun c => upperChar c.toUpper = [c.toUpper]) (by decide +kernel) hc

/-- Lower-casing keeps small letters and takes capitals back to them. -/
theorem lowerChar_of_isLower (hc : c.isLower = true) :
    lowerChar c = [c] ∧ lowerChar c.toUpper = [c] ∧ c ≠ 'Σ' ∧ c.toUpper ≠ 'Σ' :=
  forall_isLower
    (p := fun c => lowerChar c = [c] ∧ lowerChar c.toUpper = [c] ∧ c ≠ 'Σ' ∧ c.toUpper ≠ 'Σ')
    (by decide +kernel) hc

/-- Letter by letter, lower-casing undoes a mapping of small letters. -/
theorem lower_map {f : Char → Char} (h : ∀ c ∈ word, lowerChar (f c) = [c] ∧ f c ≠ 'Σ') :
    lower (word.map f) = word := by
  have hne : ∀ c ∈ word.map f, c ≠ 'Σ' := by
    rw [List.forall_mem_map]
    exact fun c hc => (h c hc).2
  rw [lower_of_forall_ne hne]
  induction word with
  | nil => rfl
  | cons c rest ih =>
    rw [List.forall_mem_cons] at h
    rw [List.map_cons, List.forall_mem_cons] at hne
    rw [List.map_cons, List.flatMap_cons, h.1.1, ih h.2 hne.2]
    rfl

/-- Small letters are their own lower case. -/
theorem lower_of_isLower (h : ∀ c ∈ word, c.isLower = true) : lower word = word := by
  have hmap := lower_map (f := id) fun c hc =>
    ⟨(lowerChar_of_isLower (h c hc)).1, (lowerChar_of_isLower (h c hc)).2.2.1⟩
  rwa [List.map_id] at hmap

/-- A word in capitals becomes the word in lower case. -/
theorem lower_map_toUpper (h : ∀ c ∈ word, c.isLower = true) :
    lower (word.map Char.toUpper) = word :=
  lower_map fun c hc =>
    ⟨(lowerChar_of_isLower (h c hc)).2.1, (lowerChar_of_isLower (h c hc)).2.2.2⟩

/-- The word with a capital at its start. -/
def capital (word : List Char) : List Char :=
  word.modifyHead Char.toUpper

/-- A word of small letters gets one capital. -/
theorem capitalWord_of_isLower (h : ∀ c ∈ word, c.isLower = true) :
    capitalWord word = capital word := by
  cases word with
  | nil => rfl
  | cons c rest =>
    rw [List.forall_mem_cons] at h
    rw [capitalWord, upperChar_of_isLower h.1, lower_of_isLower h.2]
    rfl

/-- A word in capitals keeps one of them. -/
theorem capitalWord_map_toUpper (h : ∀ c ∈ word, c.isLower = true) :
    capitalWord (word.map Char.toUpper) = capital word := by
  cases word with
  | nil => rfl
  | cons c rest =>
    rw [List.forall_mem_cons] at h
    rw [List.map_cons, capitalWord, upperChar_toUpper h.1, lower_map_toUpper h.2]
    rfl

/-- A word with its capital stays as it is. -/
theorem capitalWord_capital (h : ∀ c ∈ word, c.isLower = true) :
    capitalWord (capital word) = capital word := by
  cases word with
  | nil => rfl
  | cons c rest =>
    rw [List.forall_mem_cons] at h
    change capitalWord (c.toUpper :: rest) = c.toUpper :: rest
    rw [capitalWord, upperChar_toUpper h.1, lower_of_isLower h.2]
    rfl

/-- In lower case a word loses its capital. -/
theorem lower_capital (h : ∀ c ∈ word, c.isLower = true) : lower (capital word) = word := by
  cases word with
  | nil => rfl
  | cons c rest =>
    rw [List.forall_mem_cons] at h
    have hne : ∀ d ∈ rest, d ≠ 'Σ' := fun d hd => (lowerChar_of_isLower (h.2 d hd)).2.2.1
    have hfirst := lowerChar_of_isLower h.1
    have hrest := lower_of_isLower h.2
    rw [lower_of_forall_ne hne] at hrest
    change lower (c.toUpper :: rest) = c :: rest
    rw [lower_of_forall_ne (List.forall_mem_cons.mpr ⟨hfirst.2.2.2, hne⟩), List.flatMap_cons,
      hfirst.2.1, hrest]
    rfl

/-! ## Clusters -/

/-- A plain character is of no class that joins clusters. -/
theorem of_isPlain (hc : isPlain c = true) : ClusterClass.of c = .other := by
  obtain ⟨hlow, hhigh⟩ := isPlain_iff.mp hc
  unfold ClusterClass.of
  simp only [beq_iff_eq, Bool.or_eq_true, decide_eq_true_eq]
  rw [if_neg (by omega), if_neg (by omega), if_neg (by omega), if_pos hhigh]

/-- Nothing joins two plain characters. -/
theorem joins_start_of_isPlain {d : Char} (hc : isPlain c = true) (hd : isPlain d = true) :
    (ClusterState.start c).joins d = false := by
  have hlast : (ClusterState.start c).last = .other := of_isPlain hc
  have hconjunct : ((ClusterState.start c).conjunct == .linked) = false := by
    unfold ClusterState.start
    dsimp only
    split_ifs <;> rfl
  have hemoji : ((ClusterState.start c).emoji == .joined) = false := by
    unfold ClusterState.start
    dsimp only
    split_ifs <;> rfl
  unfold ClusterState.joins
  rw [hlast, of_isPlain hd, hconjunct, hemoji]
  rfl

/-- Plain characters are clusters by themselves. -/
theorem clustersFrom_of_isPlain (hc : isPlain c = true) (hcs : ∀ d ∈ cs, isPlain d = true) :
    clustersFrom (.start c) [c] cs = [c] :: cs.map ([·]) := by
  induction cs generalizing c with
  | nil => rfl
  | cons d rest ih =>
    rw [List.forall_mem_cons] at hcs
    rw [clustersFrom, joins_start_of_isPlain hc hcs.1, if_neg Bool.false_ne_true, ih hcs.1 hcs.2]
    rfl

/-- Every plain character is a cluster of its own. -/
theorem clusters_of_isPlain (h : ∀ c ∈ cs, isPlain c = true) : clusters cs = cs.map ([·]) := by
  cases cs with
  | nil => rfl
  | cons c rest =>
    rw [List.forall_mem_cons] at h
    exact clustersFrom_of_isPlain h.1 h.2

end Scaffold.Text
