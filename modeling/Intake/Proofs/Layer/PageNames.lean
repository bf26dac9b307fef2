import Intake.Proofs.Layer.Agreement
import Intake.Proofs.Number.Digits

/-!
# Names of page images

The rasterizer numbers the images of pages from one on and pads the numbers
with zeros to one width.  The order of such names is the order of the pages,
so sorting whatever a folder lists puts the images into page order.

There are three groups.

* Padded numbers.  `padded_lt_padded` says that numbers of one width are
  ordered as their texts are.
* Names.  `pageImage` is the name of an image, and `pageImages` are all of
  them in page order; they ascend.
* Listings.  `Lists` says which files a folder shows, in any order, and
  `images_eq` that the images found there are in page order.
-/

namespace Intake

open Text Number

/-! ## Padded numbers -/

namespace Number

theorem length_padded {width n : Nat} (h : (digits n).length ≤ width) :
    (padded width n).length = width := by
  rw [padded, List.length_append, List.length_replicate]
  omega

/-- Texts of one length are ordered by their first difference, whatever stands
behind them. -/
theorem append_lt_append {a b : List Char} (hlength : a.length = b.length) (h : a < b)
    (c d : List Char) : a ++ c < b ++ d := by
  induction a generalizing b with
  | nil =>
    rw [List.length_eq_zero_iff.1 hlength.symm] at h
    exact absurd h (List.not_lt_nil [])
  | cons x a ih =>
    cases b with
    | nil => exact absurd h (List.not_lt_nil _)
    | cons y b =>
      rw [List.cons_append, List.cons_append, List.cons_lt_cons_iff]
      rcases List.cons_lt_cons_iff.1 h with hxy | ⟨hxy, hlt⟩
      · exact Or.inl hxy
      · exact Or.inr ⟨hxy, ih (Nat.succ.inj hlength) hlt⟩

theorem digitChar_lt_digitChar : ∀ n < 10, ∀ m < n, Nat.digitChar m < Nat.digitChar n := by
  decide

theorem length_digits_div {width n : Nat} (h : (digits n).length ≤ width + 2) :
    (digits (n / 10)).length ≤ width + 1 := by
  have hlt : n < 10 ^ (width + 2) := (Nat.length_toDigits_le_iff (by decide) (by omega)).1 h
  refine length_digits_le (Nat.succ_pos width) ?_
  rw [Nat.pow_succ] at hlt
  omega

theorem length_digits_mono {m n : Nat} (h : m ≤ n) : (digits m).length ≤ (digits n).length := by
  have hpos : 0 < (digits n).length := List.length_pos_of_ne_nil (digits_ne_nil n)
  have hlt : n < 10 ^ (digits n).length :=
    (Nat.length_toDigits_le_iff (by decide) hpos).1 (Nat.le_refl _)
  exact length_digits_le hpos (h.trans_lt hlt)

/-- The induction is on the width: the texts without their last digits are
those of the numbers without them. -/
theorem padded_lt_padded {width m n : Nat} (hwidth : (digits n).length ≤ width) (h : m < n) :
    padded width m < padded width n := by
  induction width generalizing m n with
  | zero =>
    have hpos : 0 < (digits n).length := List.length_pos_of_ne_nil (digits_ne_nil n)
    omega
  | succ width ih =>
    cases width with
    | zero =>
      have hn : n < 10 := (Nat.length_toDigits_le_iff (by decide) (by decide)).1 hwidth
      rw [padded_one hn, padded_one (h.trans hn), List.cons_lt_cons_iff]
      exact Or.inl (digitChar_lt_digitChar n hn m h)
    | succ width =>
      have hshort := length_digits_div hwidth
      rw [padded_succ, padded_succ]
      rcases Nat.lt_or_eq_of_le (Nat.div_le_div_right (c := 10) h.le) with hlt | heq
      · have hlength : (padded (width + 1) (m / 10)).length =
            (padded (width + 1) (n / 10)).length :=
          (length_padded ((length_digits_mono hlt.le).trans hshort)).trans
            (length_padded hshort).symm
        exact append_lt_append hlength (ih hshort hlt) _ _
      · have hlast : m % 10 < n % 10 := by omega
        rw [heq]
        refine List.append_left_lt (List.cons_lt_cons_iff.2 (Or.inl ?_))
        exact digitChar_lt_digitChar _ (Nat.mod_lt n (by decide)) _ hlast

end Number

namespace PageReading

/-! ## Names -/

/-- The image of a page, whose number is padded with zeros. -/
def pageImage (folder : String) (width page : Nat) : String :=
  folder ++ "/page" ++ String.ofList ('-' :: padded width page) ++ ".png"

/-- The images of so many pages, in page order. -/
def pageImages (folder : String) (width total : Nat) : List String :=
  (List.range total).map fun i => pageImage folder width (i + 1)

variable {folder : String} {width total : Nat}

theorem toList_pageImage (folder : String) (width page : Nat) :
    (pageImage folder width page).toList =
      (folder ++ "/page").toList ++ ('-' :: padded width page ++ ".png".toList) := by
  rw [pageImage, String.toList_append, String.toList_append, String.toList_ofList,
    List.append_assoc]

theorem length_pageImages (folder : String) (width total : Nat) :
    (pageImages folder width total).length = total := by
  rw [pageImages, List.length_map, List.length_range]

theorem mem_pageImages {file : String} :
    file ∈ pageImages folder width total ↔
      ∃ page, 0 < page ∧ page ≤ total ∧ file = pageImage folder width page := by
  rw [pageImages, List.mem_map]
  constructor
  · rintro ⟨i, hi, rfl⟩
    exact ⟨i + 1, Nat.succ_pos i, List.mem_range.1 hi, rfl⟩
  · rintro ⟨page, hpos, hle, rfl⟩
    refine ⟨page - 1, List.mem_range.2 (by omega), ?_⟩
    rw [Nat.sub_add_cancel hpos]

theorem slash_not_mem_padded (width n : Nat) : '/' ∉ padded width n := by
  intro h
  rcases List.mem_append.1 h with h | h
  · exact absurd (List.eq_of_mem_replicate h) (by decide)
  · exact absurd (isDigit_of_mem_digits h) (by decide)

theorem isPageImage_pageImage (folder : String) (width page : Nat) :
    isPageImage folder (pageImage folder width page) = true := by
  have hsuffix : ".png".toList.isSuffixOf ('-' :: padded width page ++ ".png".toList) = true :=
    List.isSuffixOf_iff_suffix.2 (List.suffix_append _ _)
  have hslash : ('-' :: padded width page ++ ".png".toList).contains '/' = false := by
    rw [← Bool.not_eq_true, List.contains_iff_mem]
    intro h
    rcases List.mem_append.1 h with h | h
    · rcases List.mem_cons.1 h with h | h
      · exact absurd h (by decide)
      · exact slash_not_mem_padded width page h
    · exact absurd h (by decide)
  have hprefix : (folder ++ "/page").toList.isPrefixOf
      ((folder ++ "/page").toList ++ ('-' :: padded width page ++ ".png".toList)) = true :=
    List.isPrefixOf_iff_prefix.2 (List.prefix_append _ _)
  rw [isPageImage, toList_pageImage, hprefix, List.drop_left, hsuffix, hslash]
  rfl

/-- The names ascend with the pages. -/
theorem pageImage_lt_pageImage {page other : Nat} (hwidth : (digits other).length ≤ width)
    (h : page < other) : pageImage folder width page < pageImage folder width other := by
  have hlength : (padded width page).length = (padded width other).length :=
    (length_padded ((length_digits_mono h.le).trans hwidth)).trans (length_padded hwidth).symm
  rw [String.lt_iff_toList_lt, toList_pageImage, toList_pageImage]
  refine List.append_left_lt (append_lt_append ?_ ?_ _ _)
  · rw [List.length_cons, List.length_cons, hlength]
  · exact List.cons_lt_cons_iff.2 (Or.inr ⟨rfl, padded_lt_padded hwidth h⟩)

theorem pairwise_pageImages (hwidth : (digits total).length ≤ width) :
    (pageImages folder width total).Pairwise (· < ·) := by
  rw [pageImages, List.pairwise_map]
  refine List.pairwise_lt_range.imp_of_mem fun {i j} _ hj hlt => ?_
  have hother : (digits (j + 1)).length ≤ width :=
    (length_digits_mono (List.mem_range.1 hj)).trans hwidth
  exact pageImage_lt_pageImage hother (Nat.succ_lt_succ hlt)

/-! ## Listings -/

/-- Files of a folder in the order in which it is listed: the images of so many
pages, no other image of a page, and any other files. -/
structure Lists (folder : String) (width total : Nat) (files : List String) : Prop where
  shown : ∀ page, 0 < page → page ≤ total → pageImage folder width page ∈ files
  only : ∀ file ∈ files, isPageImage folder file = true →
    ∃ page, 0 < page ∧ page ≤ total ∧ file = pageImage folder width page

/-- The images may be listed in any order and mixed with other files. -/
theorem lists_of_perm {files others : List String}
    (hfiles : files.Perm (pageImages folder width total ++ others))
    (hothers : ∀ file ∈ others, isPageImage folder file = false) :
    Lists folder width total files where
  shown page hpos hle :=
    hfiles.mem_iff.2 (List.mem_append_left _ (mem_pageImages.2 ⟨page, hpos, hle, rfl⟩))
  only file hfile himage := by
    rcases List.mem_append.1 (hfiles.mem_iff.1 hfile) with hfile | hfile
    · exact mem_pageImages.1 hfile
    · exact absurd (himage.symm.trans (hothers file hfile)) Bool.false_ne_true.symm

theorem nodup_eraseDups {α : Type} [BEq α] [LawfulBEq α] :
    ∀ items : List α, items.eraseDups.Nodup
  | [] => List.nodup_nil
  | a :: rest => by
    rw [List.eraseDups_cons, List.nodup_cons]
    exact ⟨by simp, nodup_eraseDups (rest.filter fun b => !b == a)⟩
termination_by items => items.length
decreasing_by exact Nat.lt_succ_of_le (List.length_filter_le _ _)

theorem mem_images {file : String} {files : List String} :
    file ∈ images folder files ↔ file ∈ files ∧ isPageImage folder file = true := by
  rw [(images_perm folder files).mem_iff, List.mem_eraseDups, List.mem_filter]

theorem pairwise_images (folder : String) (files : List String) :
    (images folder files).Pairwise (· ≤ ·) := by
  refine (List.pairwise_mergeSort ?_ ?_ _).imp fun h => of_decide_eq_true h
  · intro a b c hab hbc
    exact decide_eq_true ((of_decide_eq_true hab).trans (of_decide_eq_true hbc))
  · intro a b
    rw [Bool.or_eq_true, decide_eq_true_eq, decide_eq_true_eq]
    exact le_total a b

/-- Whatever the order of a listing, the images found in it are in page
order. -/
theorem images_eq (hwidth : (digits total).length ≤ width) {files : List String}
    (h : Lists folder width total files) :
    images folder files = pageImages folder width total := by
  have hsorted : (pageImages folder width total).Pairwise (· < ·) := pairwise_pageImages hwidth
  have hmem : ∀ file, file ∈ images folder files ↔ file ∈ pageImages folder width total := by
    intro file
    rw [mem_images, mem_pageImages]
    constructor
    · rintro ⟨hfile, himage⟩
      exact h.only file hfile himage
    · rintro ⟨page, hpos, hle, rfl⟩
      exact ⟨h.shown page hpos hle, isPageImage_pageImage folder width page⟩
  have hnodup : (images folder files).Nodup :=
    (images_perm folder files).nodup_iff.2 (nodup_eraseDups _)
  have hperm : (images folder files).Perm (pageImages folder width total) :=
    (List.perm_ext_iff_of_nodup hnodup (hsorted.imp ne_of_lt)).2 hmem
  exact hperm.eq_of_pairwise (fun _ _ _ _ => le_antisymm) (pairwise_images folder files)
    (hsorted.imp le_of_lt)

end PageReading

end Intake
