import Mathlib.Data.List.Basic
import WikiDirectives.Article

/-! Pruning keeps the first levels of an article and nothing else. An article is seen by its positions:
one lemma tells what stands at each position of a pruned article, and articles that agree on all the
levels they have are equal. -/
namespace WikiDirectives.Article
variable {a b c : Article} {n : ℕ}

/-! ## Positions and levels -/

/-- The article at a position, which says at every level the place among the children. -/
def at? : List ℕ → Article → Option Article
  | [], article => some article
  | place :: position, article => article.children[place]?.bind (at? position)

lemma isSome_at?_cons_iff {place : ℕ} {position : List ℕ} :
    (a.at? (place :: position)).isSome ↔
      ∃ child, a.children[place]? = some child ∧ (child.at? position).isSome := by
  rw [at?]
  cases a.children[place]? <;> simp

mutual
/-- The number of levels of an article, itself being the first. -/
def levels : Article → ℕ
  | ⟨_, _, children⟩ => levelsBelow children + 1

def levelsBelow : List Article → ℕ
  | [] => 0
  | article :: rest => max article.levels (levelsBelow rest)
end

lemma levels_pos (article : Article) : 0 < article.levels := by
  obtain ⟨title, url, children⟩ := article
  exact Nat.succ_pos _

lemma levelsBelow_le_iff {articles : List Article} :
    levelsBelow articles ≤ n ↔ ∀ article ∈ articles, article.levels ≤ n := by
  induction articles with
  | nil => simp [levelsBelow]
  | cons article rest ih => rw [levelsBelow, Nat.max_le, ih, List.forall_mem_cons]

lemma levels_le_succ_iff : a.levels ≤ n + 1 ↔ ∀ child ∈ a.children, child.levels ≤ n := by
  obtain ⟨title, url, children⟩ := a
  rw [levels, Nat.add_le_add_iff_right, levelsBelow_le_iff]

/-- An article has as many levels as its positions reach down. -/
theorem levels_le_iff :
    a.levels ≤ n ↔ ∀ position, (a.at? position).isSome → position.length < n := by
  induction n generalizing a with
  | zero =>
    have hpos := a.levels_pos
    refine ⟨fun h => by omega, fun h => ?_⟩
    exact absurd (h [] rfl) (Nat.not_lt_zero _)
  | succ n ih =>
    rw [levels_le_succ_iff]
    constructor
    · intro h position hposition
      cases position with
      | nil => exact Nat.succ_pos n
      | cons place position =>
        obtain ⟨child, hchild, hposition⟩ := isSome_at?_cons_iff.mp hposition
        have hlevels := h child (List.mem_of_getElem? hchild)
        exact Nat.succ_lt_succ (ih.mp hlevels position hposition)
    · intro h child hmem
      obtain ⟨place, hchild⟩ := List.getElem?_of_mem hmem
      refine ih.mpr fun position hposition => ?_
      have hposition := isSome_at?_cons_iff.mpr ⟨child, hchild, hposition⟩
      exact Nat.lt_of_succ_lt_succ (h (place :: position) hposition)

/-! ## Agreement -/

/-- What an article shows of itself: its title and its address. -/
def entry (article : Article) : Text × Text := (article.title, article.url)

/-- The number of articles right below an article. -/
def count (article : Article) : ℕ := article.children.length

/-- Two articles agree in what is observed on their first levels: at each position there, both have an
article and the same is observed of it, or neither has one. -/
def AgreeOn {β : Type} (observe : Article → β) (levels : ℕ) (a b : Article) : Prop :=
  ∀ position : List ℕ, position.length < levels →
    (a.at? position).map observe = (b.at? position).map observe

section AgreeOn
variable {β : Type} {observe : Article → β}

lemma AgreeOn.symm (h : AgreeOn observe n a b) : AgreeOn observe n b a :=
  fun position hlevel => (h position hlevel).symm

lemma AgreeOn.trans (hab : AgreeOn observe n a b) (hbc : AgreeOn observe n b c) :
    AgreeOn observe n a c :=
  fun position hlevel => (hab position hlevel).trans (hbc position hlevel)

lemma AgreeOn.mono {fewer : ℕ} (hle : fewer ≤ n) (h : AgreeOn observe n a b) :
    AgreeOn observe fewer a b :=
  fun position hlevel => h position (Nat.lt_of_lt_of_le hlevel hle)

end AgreeOn

/-- Articles that show the same on all the levels they have are equal. -/
theorem eq_of_agreeOn (ha : a.levels ≤ n) (hb : b.levels ≤ n) (h : AgreeOn entry n a b) : a = b := by
  induction n generalizing a b with
  | zero => exact absurd ha (Nat.not_le.mpr a.levels_pos)
  | succ n ih =>
    rw [levels_le_succ_iff] at ha hb
    have hroot : a.entry = b.entry := Option.some.inj (h [] (Nat.succ_pos n))
    have hbelow (place : ℕ) (position : List ℕ) (hlevel : position.length < n) :
        (a.children[place]?.bind (at? position)).map entry =
          (b.children[place]?.bind (at? position)).map entry :=
      h (place :: position) (Nat.succ_lt_succ hlevel)
    have hchildren : a.children = b.children := by
      refine List.ext_getElem? fun place => ?_
      have hplace := hbelow place
      cases hx : a.children[place]? with
      | none =>
        cases hy : b.children[place]? with
        | none => rfl
        | some y =>
          -- `y` has a level, so that its position is among those that are compared
          have hyn := hb y (List.mem_of_getElem? hy)
          simpa [hx, hy, at?] using hplace [] (Nat.lt_of_lt_of_le y.levels_pos hyn)
      | some x =>
        have hxn := ha x (List.mem_of_getElem? hx)
        cases hy : b.children[place]? with
        | none => simpa [hx, hy, at?] using hplace [] (Nat.lt_of_lt_of_le x.levels_pos hxn)
        | some y =>
          rw [hx, hy] at hplace
          exact congrArg some (ih hxn (hb y (List.mem_of_getElem? hy)) hplace)
    obtain ⟨title, url, children⟩ := a
    obtain ⟨_, _, _⟩ := b
    obtain ⟨rfl, rfl⟩ := Prod.mk.inj hroot
    obtain rfl : children = _ := hchildren
    rfl

/-! ## Pruning -/

lemma pruned_of_le_one {depth : ℕ} (h : depth ≤ 1) (article : Article) :
    article.pruned depth = { article with children := [] } := by
  fun_cases pruned depth article with
  | case1 depth => omega
  | case2 => rfl

lemma pruned_succ_succ (depth : ℕ) (article : Article) :
    article.pruned (depth + 2) =
      { article with children := article.children.map (pruned (depth + 1)) } :=
  rfl

lemma pruned_max_one (depth : ℕ) (article : Article) :
    article.pruned (max depth 1) = article.pruned depth := by
  rcases Nat.lt_or_ge 1 depth with h | h
  · rw [Nat.max_eq_left (Nat.le_of_lt h)]
  · rw [Nat.max_eq_right h, pruned_of_le_one h, pruned_of_le_one (Nat.le_refl 1)]

@[simp] lemma entry_pruned (depth : ℕ) (article : Article) :
    (article.pruned depth).entry = article.entry := by
  fun_cases pruned depth article <;> rfl

lemma count_pruned {depth : ℕ} (h : 1 < depth) (article : Article) :
    (article.pruned depth).count = article.count := by
  obtain ⟨depth, rfl⟩ : ∃ lower, depth = lower + 2 := ⟨depth - 2, by omega⟩
  exact List.length_map _

/-- At each position of the first levels stands what stood there, pruned to the levels that are left. -/
theorem at?_pruned (depth : ℕ) (article : Article) (position : List ℕ) :
    (article.pruned depth).at? position =
      if position.length < max depth 1 then
        (article.at? position).map (pruned (max depth 1 - position.length))
      else none := by
  induction position generalizing depth article with
  | nil =>
    have hlevel : ([] : List ℕ).length < max depth 1 := Nat.le_max_right depth 1
    rw [if_pos hlevel]
    exact congrArg some (pruned_max_one depth article).symm
  | cons place position ih =>
    rw [List.length_cons]
    rcases Nat.lt_or_ge 1 depth with h | h
    · obtain ⟨depth, rfl⟩ : ∃ lower, depth = lower + 2 := ⟨depth - 2, by omega⟩
      have hlevel : position.length + 1 < max (depth + 2) 1 ↔ position.length < max (depth + 1) 1 := by
        omega
      have hleft : max (depth + 2) 1 - (position.length + 1) =
          max (depth + 1) 1 - position.length := by
        omega
      rw [pruned_succ_succ, at?, at?, List.getElem?_map]
      simp only [hlevel, hleft]
      cases article.children[place]? with
      | none => simp
      | some child => exact ih (depth + 1) child
    · -- a depth of zero or one leaves one level, so no place below it
      rw [pruned_of_le_one h, if_neg (by omega)]
      rfl

lemma levels_pruned_le (depth : ℕ) (article : Article) :
    (article.pruned depth).levels ≤ max depth 1 := by
  refine levels_le_iff.mpr fun position hposition => ?_
  rw [at?_pruned] at hposition
  split at hposition
  · assumption
  · cases hposition

lemma levels_pruned_le_levels (depth : ℕ) (article : Article) :
    (article.pruned depth).levels ≤ article.levels := by
  refine levels_le_iff.mpr fun position hposition => levels_le_iff.mp (Nat.le_refl _) position ?_
  rw [at?_pruned] at hposition
  split at hposition
  · rwa [Option.isSome_map] at hposition
  · cases hposition

/-- Pruning leaves on the first levels what is observed there, if the prunings to as many levels as are
left there keep it. -/
lemma agreeOn_pruned {β : Type} {observe : Article → β} {depth : ℕ} (hle : n ≤ max depth 1)
    (hkeeps : ∀ left, max depth 1 - n < left → ∀ b, observe (b.pruned left) = observe b)
    (article : Article) : AgreeOn observe n (article.pruned depth) article := by
  intro position hlevel
  rw [at?_pruned, if_pos (by omega), Option.map_map]
  congr 1
  funext b
  exact hkeeps _ (by omega) b

lemma agreeOn_entry_pruned (depth : ℕ) (article : Article) :
    AgreeOn entry (max depth 1) (article.pruned depth) article :=
  agreeOn_pruned (Nat.le_refl _) (fun left _ b => entry_pruned left b) article

lemma agreeOn_count_pruned (depth : ℕ) (article : Article) :
    AgreeOn count (max depth 1 - 1) (article.pruned depth) article :=
  agreeOn_pruned (Nat.sub_le _ _) (fun _ hleft b => count_pruned (by omega) b) article

theorem pruned_pruned (depth again : ℕ) (article : Article) :
    (article.pruned depth).pruned again = article.pruned (min depth again) := by
  have honce := levels_pruned_le depth article
  have htwice := levels_pruned_le again (article.pruned depth)
  have hfewer := levels_pruned_le_levels again (article.pruned depth)
  have hagain := agreeOn_entry_pruned again (article.pruned depth)
  have hdepth := agreeOn_entry_pruned depth article
  have hmin := agreeOn_entry_pruned (min depth again) article
  -- neither side has more levels than the lesser depth allows, and there both agree with the article
  refine eq_of_agreeOn (by omega) (levels_pruned_le (min depth again) article) ?_
  exact ((hagain.mono (by omega)).trans (hdepth.mono (by omega))).trans hmin.symm

theorem pruned_eq_self_iff {depth : ℕ} : a.pruned depth = a ↔ a.levels ≤ max depth 1 := by
  constructor
  · intro h
    rw [← h]
    exact levels_pruned_le depth a
  · intro h
    exact eq_of_agreeOn (levels_pruned_le depth a) h (agreeOn_entry_pruned depth a)

/-- On the last level that is kept, how many articles stood below is no longer seen. -/
theorem pruned_eq_pruned_iff {depth : ℕ} :
    a.pruned depth = b.pruned depth ↔
      AgreeOn entry (max depth 1) a b ∧ AgreeOn count (max depth 1 - 1) a b := by
  constructor
  · intro h
    have hentry := agreeOn_entry_pruned depth a
    have hcount := agreeOn_count_pruned depth a
    rw [h] at hentry hcount
    exact ⟨hentry.symm.trans (agreeOn_entry_pruned depth b),
      hcount.symm.trans (agreeOn_count_pruned depth b)⟩
  · rintro ⟨hentry, -⟩
    refine eq_of_agreeOn (levels_pruned_le depth a) (levels_pruned_le depth b) ?_
    exact ((agreeOn_entry_pruned depth a).trans hentry).trans (agreeOn_entry_pruned depth b).symm

/-- Pruning keeps exactly the first levels, at least one. Pruned twice, an article is pruned to the
lesser depth. What is left has no more levels than asked for, and it is the whole article just if that
has no more. Two articles come out equal just if they agree in titles and addresses at every position
of these levels, and in the number of children at every position but those of the last of them. -/
theorem pruned_keeps_first_levels (a b : Article) (depth again : ℕ) :
    (a.pruned depth).pruned again = a.pruned (min depth again) ∧
    (a.pruned depth).levels ≤ max depth 1 ∧
    (a.pruned depth = a ↔ a.levels ≤ max depth 1) ∧
    (a.pruned depth = b.pruned depth ↔
      AgreeOn entry (max depth 1) a b ∧ AgreeOn count (max depth 1 - 1) a b) :=
  ⟨pruned_pruned depth again a, levels_pruned_le depth a, pruned_eq_self_iff, pruned_eq_pruned_iff⟩

/-- An article with one article below it and the same article with none come out equal from pruning to
one level, though at the only position of this level their numbers of children differ. -/
theorem pruned_install_childless :
    let childless : Article := ⟨"Install".toList, "/install".toList, []⟩
    let linux : Article := ⟨"Linux".toList, "/install/linux".toList, []⟩
    let install : Article := { childless with children := [linux] }
    install.pruned 1 = childless.pruned 1 ∧
      ¬ (AgreeOn entry (max 1 1) install childless ∧ AgreeOn count (max 1 1) install childless) := by
  intro childless linux install
  refine ⟨rfl, ?_⟩
  rintro ⟨-, hcount⟩
  have hroot : some 1 = some 0 := hcount [] (by decide)
  simp at hroot

end WikiDirectives.Article
