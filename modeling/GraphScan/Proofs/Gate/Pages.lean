import GraphScan.Proofs.Gate.Window

/-!
# Windows one after the other

Each window cuts a page from a list of matches and leaves the rest to the next one.

* `Window.rest` — the matches that a window leaves.
* `Window.filter_drop_extent` — **the rows not looked at hold exactly these matches.**
* `Window.pages` — the pages of a series of windows, and `Window.restAll` what they leave.
* `Window.pages_append_restAll_sublist` — no match is on two pages, and none has changed its place.
* `Window.extent_add` — two limits one after the other reach as far as their sum.
-/

namespace GraphScan

variable {α : Type}

/-! ## Rows behind the matches -/

/-- The rows behind the `count`-th match hold the matches but for the first `count`. -/
theorem filter_drop_reach (p : α → Bool) (count : Nat) (rows : List α) :
    (rows.drop (reach p count rows)).filter p = (rows.filter p).drop count := by
  have hsplit : (rows.filter p).take count ++ (rows.drop (reach p count rows)).filter p =
      (rows.filter p).take count ++ (rows.filter p).drop count := by
    rw [← filter_take_reach, ← List.filter_append, List.take_append_drop, filter_take_reach,
      List.take_append_drop]
  exact List.append_cancel_left hsplit

/-- Matches that are counted on from where a count has ended are counted together. -/
theorem reach_add (p : α → Bool) (count more : Nat) (rows : List α) :
    reach p (count + more) rows =
      reach p count rows + reach p more (rows.drop (reach p count rows)) := by
  induction rows generalizing count with
  | nil =>
      cases count with
      | zero => simp [reach]
      | succ count => cases more <;> simp [reach]
  | cons row rows ih =>
      cases count with
      | zero => simp [reach]
      | succ count =>
          have hsum : count + 1 + more = count + more + 1 := by omega
          rw [hsum, reach, reach, List.drop_succ_cons]
          by_cases h : p row
          · simp only [h, if_true, ih count]
            omega
          · have hnext := ih (count + 1)
            rw [hsum] at hnext
            simp only [h, Bool.false_eq_true, if_false, hnext]
            omega

namespace Window

/-- **What a window leaves** of a list of matches: those behind the last that it lets pass.  One that
lets nothing pass leaves them all, without looking at its offset. -/
def rest (window : Window) (rows : List α) : List α :=
  match window.limit with
  | some 0 => rows
  | some limit => rows.drop (window.offset + limit)
  | none => []

/-- **The rows not looked at hold the matches that the window leaves.** -/
theorem filter_drop_extent (window : Window) (p : α → Bool) (rows : List α) :
    (rows.drop (window.extent p rows)).filter p = window.rest (rows.filter p) := by
  obtain ⟨limit, offset⟩ := window
  match limit with
  | none => simp [extent, rest]
  | some 0 => simp [extent, rest]
  | some (limit + 1) => exact filter_drop_reach p (offset + (limit + 1)) rows

/-- What passes stands before what is left. -/
theorem cut_append_rest_sublist (window : Window) (rows : List α) :
    (window.cut rows ++ window.rest rows).Sublist rows := by
  obtain ⟨limit, offset⟩ := window
  match limit with
  | none => simp [cut, rest, List.drop_sublist]
  | some 0 => simp [cut, rest]
  | some (limit + 1) =>
      simp only [cut, rest]
      rw [← List.drop_drop, List.take_append_drop]
      exact List.drop_sublist offset rows

/-! ## Pages -/

/-- **The pages of a series of windows**, each cut from what the ones before have left. -/
def pages (rows : List α) : List Window → List (List α)
  | [] => []
  | window :: windows => window.cut rows :: pages (window.rest rows) windows

/-- What a series of windows leaves. -/
def restAll (rows : List α) : List Window → List α
  | [] => rows
  | window :: windows => restAll (window.rest rows) windows

/-- **Pages repeat nothing and keep the order**: one behind the other, with what is left behind them,
they are a part of the matches. -/
theorem pages_append_restAll_sublist (rows : List α) (windows : List Window) :
    ((pages rows windows).flatten ++ restAll rows windows).Sublist rows := by
  induction windows generalizing rows with
  | nil => simp [pages, restAll]
  | cons window windows ih =>
      rw [pages, restAll, List.flatten_cons, List.append_assoc]
      exact ((ih (window.rest rows)).append_left (window.cut rows)).trans
        (window.cut_append_rest_sublist rows)

/-! ## Limits in a row -/

/-- Without an offset a limit counts the matches from the first row on. -/
theorem extent_limit (limit : Nat) (p : α → Bool) (rows : List α) :
    Window.extent ⟨some limit, 0⟩ p rows = reach p limit rows := by
  cases limit with
  | zero => simp [extent, reach]
  | succ limit => rw [extent_succ, Nat.zero_add]

/-- **Two limits reach as far as their sum.** -/
theorem extent_add (first second : Nat) (p : α → Bool) (rows : List α) :
    Window.extent ⟨some (first + second), 0⟩ p rows =
      Window.extent ⟨some first, 0⟩ p rows +
        Window.extent ⟨some second, 0⟩ p (rows.drop (Window.extent ⟨some first, 0⟩ p rows)) := by
  simp only [extent_limit]
  exact reach_add p first second rows

theorem rest_limit (limit : Nat) (rows : List α) :
    Window.rest ⟨some limit, 0⟩ rows = rows.drop limit := by
  cases limit with
  | zero => rfl
  | succ limit => simp [rest]

/-- **Two pages are the page of the sum of their limits.** -/
theorem cut_add (first second : Nat) (rows : List α) :
    Window.cut ⟨some (first + second), 0⟩ rows =
      Window.cut ⟨some first, 0⟩ rows ++
        Window.cut ⟨some second, 0⟩ (Window.rest ⟨some first, 0⟩ rows) := by
  rw [rest_limit]
  exact List.take_add

/-! ### An example -/

/-- The second window skips one of what is left, the third lets nothing pass, and nothing is left. -/
example : pages [1, 2, 3, 4, 5] [⟨some 2, 0⟩, ⟨some 1, 1⟩, ⟨some 0, 9⟩, ⟨some 4, 0⟩] =
    [[1, 2], [4], [], [5]] := rfl

end Window

end GraphScan
