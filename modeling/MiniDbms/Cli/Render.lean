import MiniDbms.Common.Cells
import MiniDbms.Engine.Executor
import MiniDbms.Runtime.Reload

/-!
# Tables on the terminal

What `executor.c` prints. A table whose cells can be stored is printed in lines of one width, with
the separators below each other, whatever the bytes of its cells are.
-/

namespace MiniDbms

/-! ### The functions -/

/-- `utils_print_padded`: what is written to the stream. -/
def utilsPrintPadded (text : CString) (targetWidth : Int) : Option CString := do
  let currentWidth ← utilsDisplayWidth text
  some (text ++ List.replicate (targetWidth - currentWidth).toNat (chr ' '))

/-- `executor_print_border` -/
def executorPrintBorder (widths : List Int) : CString :=
  widths.flatMap (fun width => chr '+' :: List.replicate (toInt (width + 2)).toNat (chr '-')) ++
    bytes "+\n"

/-- The widths after a row has been measured; `none` stands for a read behind the row. -/
def widenColumns : (widths : List Int) → (row : List CString) → Option (List Int)
  | [], _                       => some []
  | _ :: _, []                  => none
  | width :: widths, cell :: row => do
    let cellWidth ← utilsDisplayWidth cell
    let widths ← widenColumns widths row
    some ((if cellWidth > width then cellWidth else width) :: widths)

/-- The line for a row, or for the headers. -/
def printCells : (widths : List Int) → (row : List CString) → Option CString
  | [], _                       => some (bytes "|\n")
  | _ :: _, []                  => none
  | width :: widths, cell :: row => do
    let padded ← utilsPrintPadded cell width
    let line ← printCells widths row
    some (bytes "| " ++ padded ++ bytes " " ++ line)

/-- `executor_print_table`; `none` stands for an access outside an array. -/
def executorPrintTable (headers : List Identifier) (rows : List (List CString)) :
    Option CString := do
  if maxColumns < headers.length then none
  else
    let widths ← headers.mapM fun header => utilsDisplayWidth header.val
    let widths ← rows.foldlM widenColumns widths
    let header ← printCells widths (headers.map CBuf.val)
    let lines ← rows.mapM (printCells widths)
    some (executorPrintBorder widths ++ header ++ executorPrintBorder widths ++ lines.flatten ++
      executorPrintBorder widths)

/-- What `executor_render_result_for_cli` has written to the standard streams. -/
structure Printed where
  stdout : CString
  stderr : CString
  deriving DecidableEq, Repr

/-- `puts`, unless there is nothing to say. -/
def putsMessage (message : CString) : CString := if message = [] then [] else message ++ bytes "\n"

/-- `executor_render_result_for_cli` -/
def executorRenderResultForCli (result : DbResult) : Option Printed :=
  if result.success = false then
    some ⟨[], if result.message.val = [] then []
      else bytes "Error: " ++ result.message.val ++ bytes "\n"⟩
  else
    match result.type with
    | .insert => some ⟨putsMessage result.message.val, []⟩
    | .select => do
      let table ← executorPrintTable result.columns result.rows
      some ⟨table ++ putsMessage result.message.val, []⟩
    | _       => some ⟨putsMessage result.message.val, []⟩

/-! ### Tables that are drawn well -/

/-- `Ruled widths row line`: the line shows the row, and each of its columns takes the cells of its
width, a separator and two blanks. -/
inductive Ruled : List Int → List CString → CString → Prop
  | bar : Ruled [] [] (bytes "|")
  | column {width : Int} {widths : List Int} {cell : CString} {row : List CString} {line : CString}
      (blanks : Nat) (hwidth : utilsDisplayWidth
        (bytes "| " ++ cell ++ List.replicate blanks (chr ' ') ++ bytes " ") = some (width + 3))
      (hmore : Ruled widths row line) :
      Ruled (width :: widths) (cell :: row)
        (bytes "| " ++ cell ++ List.replicate blanks (chr ' ') ++ bytes " " ++ line)

/-- A line of the terminal of that many cells. -/
structure LineOf (cells : Int) (line : CString) : Prop where
  no_line_break : NoLineBreak line
  width : utilsDisplayWidth line = some cells

/-- The text is a table: borders, the headers and the rows, in lines of one width and in columns
that stand below each other. -/
def Drawn (headers : List Identifier) (rows : List (List CString)) (text : CString) : Prop :=
  ∃ (widths : List Int) (border header : CString) (lines : List CString),
    text = ([border, header, border] ++ lines ++ [border]).flatMap (· ++ bytes "\n") ∧
    Ruled widths (headers.map CBuf.val) header ∧ List.Forall₂ (Ruled widths) rows lines ∧
    ∀ line ∈ [border, header, border] ++ lines ++ [border],
      LineOf ((widths.map (· + 3)).sum + 1) line

/-- The cell fits in the column. -/
def Fits (cell : CString) (width : Int) : Prop := ∃ n, Spans cell n ∧ 0 ≤ n ∧ n ≤ width

/-- Columns of at most as many cells as 255 bytes take. -/
def Narrow (widths : List Int) : Prop := ∀ width ∈ widths, 0 ≤ width ∧ width ≤ 1020

/-! ### Measuring -/

lemma forall₂_trans {α β γ : Type} {R : α → β → Prop} {S : β → γ → Prop} {T : α → γ → Prop}
    (hcomp : ∀ a b c, R a b → S b c → T a c) {as : List α} {bs : List β} {cs : List γ}
    (h : List.Forall₂ R as bs) (h' : List.Forall₂ S bs cs) : List.Forall₂ T as cs := by
  induction h generalizing cs with
  | nil =>
    cases h'
    exact .nil
  | cons hab _ ih =>
    cases h' with
    | cons hbc hmore => exact .cons (hcomp _ _ _ hab hbc) (ih hmore)

section Measure

variable {widths : List Int} {row : List CString}

/-- A text of a `char[256]` is measured. -/
lemma measure {cell : CString} (hnul : 0 ∉ cell) (hlen : cell.length ≤ 255) :
    ∃ n, utilsDisplayWidth cell = some n ∧ Fits cell n ∧ 0 ≤ n ∧ n ≤ 1020 := by
  obtain ⟨n, hspans, hn, hmax⟩ := Spans.exists_of_no_nul hnul
  exact ⟨n, hspans.displayWidth hn (by omega), ⟨n, hspans, hn, le_rfl⟩, hn, by omega⟩

lemma Fits.mono {cell : CString} {width width' : Int} (h : Fits cell width)
    (hle : width ≤ width') : Fits cell width' := by
  obtain ⟨n, hspans, hn, hmax⟩ := h
  exact ⟨n, hspans, hn, hmax.trans hle⟩

/-- The columns of a row become as wide as its cells need, and none becomes narrower. -/
lemma widenColumns_fits (hrow : ∀ cell ∈ row, StorableCell cell)
    (hlen : row.length = widths.length) (hnarrow : Narrow widths) :
    ∃ widths', widenColumns widths row = some widths' ∧ List.Forall₂ (· ≤ ·) widths widths' ∧
      List.Forall₂ Fits row widths' ∧ Narrow widths' := by
  induction row generalizing widths with
  | nil =>
    obtain rfl : widths = [] := List.length_eq_zero_iff.mp hlen.symm
    exact ⟨[], rfl, .nil, .nil, hnarrow⟩
  | cons cell row ih =>
    obtain ⟨width, widths, rfl⟩ := List.exists_cons_of_length_eq_add_one hlen.symm
    obtain ⟨hwidth, hwidths⟩ := List.forall_mem_cons.mp hnarrow
    obtain ⟨hcell, hrow⟩ := List.forall_mem_cons.mp hrow
    obtain ⟨n, hdisplay, hfits, hn, hmax⟩ := measure hcell.no_nul hcell.length_le
    obtain ⟨widths', hwiden, hle, hfits', hnarrow'⟩ :=
      ih hrow (Nat.succ_injective hlen) hwidths
    refine ⟨(if n > width then n else width) :: widths', ?_, .cons ?_ hle, .cons ?_ hfits', ?_⟩
    · simp only [widenColumns, hdisplay, hwiden, Option.bind_eq_bind, Option.bind_some]
    · split_ifs <;> omega
    · refine hfits.mono ?_
      split_ifs <;> omega
    · refine List.forall_mem_cons.mpr ⟨?_, hnarrow'⟩
      split_ifs <;> omega

/-- All the rows, one after the other. -/
lemma foldlM_widenColumns {rows : List (List CString)}
    (hrows : ∀ row ∈ rows, row.length = widths.length ∧ ∀ cell ∈ row, StorableCell cell)
    (hnarrow : Narrow widths) :
    ∃ widths', rows.foldlM widenColumns widths = some widths' ∧
      List.Forall₂ (· ≤ ·) widths widths' ∧ (∀ row ∈ rows, List.Forall₂ Fits row widths') ∧
      Narrow widths' := by
  induction rows generalizing widths with
  | nil => exact ⟨widths, rfl, List.forall₂_same.mpr fun _ _ => le_rfl, by simp, hnarrow⟩
  | cons row rows ih =>
    obtain ⟨⟨hlen, hcells⟩, hrows⟩ := List.forall_mem_cons.mp hrows
    obtain ⟨widths₁, hwiden, hle, hfits, hnarrow₁⟩ := widenColumns_fits hcells hlen hnarrow
    have hrows₁ : ∀ row ∈ rows, row.length = widths₁.length ∧ ∀ cell ∈ row, StorableCell cell :=
      fun row hrow => ⟨(hrows row hrow).1.trans hle.length_eq, (hrows row hrow).2⟩
    obtain ⟨widths₂, hfold, hle', hfits', hnarrow₂⟩ := ih hrows₁ hnarrow₁
    refine ⟨widths₂, ?_, ?_, ?_, hnarrow₂⟩
    · rw [List.foldlM_cons, hwiden]
      exact hfold
    · exact forall₂_trans (fun _ _ _ hab hbc => hab.trans hbc) hle hle'
    · refine List.forall_mem_cons.mpr ⟨?_, hfits'⟩
      exact forall₂_trans (fun _ _ _ hfits hle => hfits.mono hle) hfits hle'

end Measure

/-! ### Drawing -/

/-- A cell with its separator and blanks, before the rest of the line. -/
lemma Spans.column {cell rest : CString} {n m : Int} (h : Spans cell n) (hrest : Spans rest m)
    (k : Nat) : Spans (bytes "| " ++ cell ++ List.replicate k (chr ' ') ++ bytes " " ++ rest)
      (n + k + 3 + m) := by
  have hblank : 0x20 ≤ (chr ' ').toNat ∧ (chr ' ').toNat < 0x7F := by decide
  have hbar : 0x20 ≤ (chr '|').toNat ∧ (chr '|').toNat < 0x7F := by decide
  have hright : Spans (List.replicate k (chr ' ') ++ chr ' ' :: rest) (k + (1 + m)) :=
    (hrest.cons hblank).replicate hblank k
  have hhead : ∀ b ∈ (List.replicate k (chr ' ') ++ chr ' ' :: rest).head?, b.toNat < 0x80 := by
    cases k <;> simp +decide [List.replicate_succ]
  have hline := ((h.append hright hhead).cons hblank).cons hbar
  have hbytes : bytes "| " = [chr '|', chr ' '] := rfl
  have hspace : bytes " " = [chr ' '] := rfl
  rw [hbytes, hspace]
  convert hline using 1
  · simp
  · ring

lemma printCells_ruled {widths : List Int} {row : List CString}
    (h : List.Forall₂ Fits row widths) (hnarrow : Narrow widths) :
    ∃ line, printCells widths row = some (line ++ bytes "\n") ∧ Ruled widths row line ∧
      Spans line ((widths.map (· + 3)).sum + 1) := by
  induction h with
  | nil => exact ⟨bytes "|", rfl, .bar, (Spans.nil.cons (b := chr '|') (by decide))⟩
  | @cons cell width row widths hfits _ ih =>
    obtain ⟨hwidth, hwidths⟩ := List.forall_mem_cons.mp hnarrow
    obtain ⟨n, hspans, hn, hmax⟩ := hfits
    obtain ⟨line, hprint, hruled, hline⟩ := ih hwidths
    have hdisplay := hspans.displayWidth hn (by omega)
    have hblanks : n + ((width - n).toNat : Int) = width := by omega
    have hpiece := hspans.column .nil (width - n).toNat
    rw [hblanks, List.append_nil, Int.add_zero] at hpiece
    refine ⟨_, ?_, .column (width - n).toNat ?_ hruled, ?_⟩
    · simp [printCells, utilsPrintPadded, hdisplay, hprint]
    · exact hpiece.displayWidth (by omega) (by omega)
    · have hcolumn := hspans.column hline (width - n).toNat
      rw [hblanks] at hcolumn
      convert hcolumn using 1
      simp
      ring

lemma noLineBreak_append {a b : CString} : NoLineBreak (a ++ b) ↔ NoLineBreak a ∧ NoLineBreak b := by
  simp only [NoLineBreak, List.mem_append, not_or]
  exact and_and_and_comm

lemma noLineBreak_replicate {b : Byte} (hb : NoLineBreak [b]) (k : Nat) :
    NoLineBreak (List.replicate k b) := by
  simp only [NoLineBreak, List.mem_singleton] at hb
  exact ⟨fun h => hb.1 (List.eq_of_mem_replicate h), fun h => hb.2 (List.eq_of_mem_replicate h)⟩

lemma Ruled.noLineBreak {widths : List Int} {row : List CString} {line : CString}
    (h : Ruled widths row line) (hrow : ∀ cell ∈ row, NoLineBreak cell) : NoLineBreak line := by
  induction h with
  | bar => decide
  | column blanks _ _ ih =>
    obtain ⟨hcell, hrow⟩ := List.forall_mem_cons.mp hrow
    simp only [noLineBreak_append]
    exact ⟨⟨⟨⟨by decide, hcell⟩, noLineBreak_replicate (by decide) _⟩, by decide⟩, ih hrow⟩

lemma executorPrintBorder_spans {widths : List Int} (hnarrow : Narrow widths) :
    ∃ border, executorPrintBorder widths = border ++ bytes "\n" ∧ NoLineBreak border ∧
      Spans border ((widths.map (· + 3)).sum + 1) := by
  induction widths with
  | nil => exact ⟨bytes "+", rfl, by decide, Spans.nil.cons (b := chr '+') (by decide)⟩
  | cons width widths ih =>
    obtain ⟨hwidth, hwidths⟩ := List.forall_mem_cons.mp hnarrow
    obtain ⟨border, hprint, hline, hspans⟩ := ih hwidths
    have hint : toInt (width + 2) = width + 2 := Int.bmod_eq_of_le (by omega) (by omega)
    have hdash : ((width + 2).toNat : Int) = width + 2 := by omega
    refine ⟨chr '+' :: (List.replicate (width + 2).toNat (chr '-') ++ border), ?_, ?_, ?_⟩
    · rw [executorPrintBorder] at hprint ⊢
      rw [List.flatMap_cons, hint, List.append_assoc, hprint]
      simp
    · rw [← List.singleton_append, noLineBreak_append, noLineBreak_append]
      exact ⟨by decide, noLineBreak_replicate (by decide) _, hline⟩
    · have hedge := (hspans.replicate (b := chr '-') (by decide) (width + 2).toNat).cons
        (b := chr '+') (by decide)
      rw [hdash] at hedge
      convert hedge using 1
      simp
      ring

/-- The lines are far from too long for an `int`. -/
lemma Narrow.sum_le {widths : List Int} (h : Narrow widths) (hlen : widths.length ≤ maxColumns) :
    0 ≤ (widths.map (· + 3)).sum ∧ (widths.map (· + 3)).sum ≤ 32 * 1023 := by
  have hrange : ∀ w ∈ widths.map (· + 3), 0 ≤ w ∧ w ≤ 1023 := by
    intro w hw
    obtain ⟨width, hmem, rfl⟩ := List.mem_map.mp hw
    have := h width hmem
    omega
  have hle := List.sum_le_card_nsmul (widths.map (· + 3)) 1023 fun w hw => (hrange w hw).2
  have hmax : maxColumns = 32 := rfl
  rw [List.length_map, nsmul_eq_mul] at hle
  refine ⟨List.sum_nonneg fun w hw => (hrange w hw).1, ?_⟩
  omega

/-- What can be printed: short names, as many as the arrays admit, and rows that can be stored. -/
structure Printable (headers : List Identifier) (rows : List (List CString)) : Prop where
  length_le : headers.length ≤ maxColumns
  names : ∀ header ∈ headers, NoLineBreak header.val
  cells : ∀ row ∈ rows, row.length = headers.length ∧ ∀ cell ∈ row, StorableCell cell

lemma exists_mapM {α β γ : Type} {f : α → Option γ} {g : β → γ} {R : α → β → Prop} {l : List α}
    (h : ∀ a ∈ l, ∃ b, f a = some (g b) ∧ R a b) :
    ∃ bs, l.mapM f = some (bs.map g) ∧ List.Forall₂ R l bs := by
  induction l with
  | nil => exact ⟨[], rfl, .nil⟩
  | cons a l ih =>
    obtain ⟨⟨b, hf, hr⟩, h⟩ := List.forall_mem_cons.mp h
    obtain ⟨bs, hfs, hrs⟩ := ih h
    exact ⟨b :: bs, by simp [hf, hfs], .cons hr hrs⟩

lemma forall_of_forall₂ {α β : Type} {R : α → β → Prop} {p : β → Prop} (hp : ∀ a b, R a b → p b)
    {as : List α} {bs : List β} (h : List.Forall₂ R as bs) : ∀ b ∈ bs, p b := by
  induction h with
  | nil => simp
  | cons hab _ ih => exact List.forall_mem_cons.mpr ⟨hp _ _ hab, ih⟩

/-- The headers are measured first. -/
lemma measure_headers (headers : List Identifier) :
    ∃ widths, headers.mapM (fun header => utilsDisplayWidth header.val) = some widths ∧
      List.Forall₂ Fits (headers.map CBuf.val) widths ∧ Narrow widths := by
  obtain ⟨widths, hmap, hwidths⟩ := exists_mapM (g := id) (l := headers)
    (f := fun header => utilsDisplayWidth header.val)
    (R := fun header width => Fits header.val width ∧ 0 ≤ width ∧ width ≤ 1020) fun header _ => by
      have hlen := header.property.1
      exact measure header.property.2 (by omega)
  rw [List.map_id] at hmap
  refine ⟨widths, hmap, ?_, forall_of_forall₂ (fun _ _ h => h.2) hwidths⟩
  exact List.forall₂_map_left_iff.mpr (hwidths.imp fun _ _ h => h.1)

/-- A table that can be printed is drawn as it should be. -/
lemma Printable.drawn {headers : List Identifier} {rows : List (List CString)}
    (h : Printable headers rows) :
    ∃ text, executorPrintTable headers rows = some text ∧ Drawn headers rows text := by
  obtain ⟨widths₀, hheaders, hfits₀, hnarrow₀⟩ := measure_headers headers
  have hlen₀ : widths₀.length = headers.length := by simpa using hfits₀.length_eq.symm
  have hcells : ∀ row ∈ rows, row.length = widths₀.length ∧ ∀ cell ∈ row, StorableCell cell := by
    rw [hlen₀]
    exact h.cells
  obtain ⟨widths, hfold, hle, hfits, hnarrow⟩ := foldlM_widenColumns hcells hnarrow₀
  have hlen : widths.length ≤ maxColumns := by
    rw [← hle.length_eq, hlen₀]
    exact h.length_le
  obtain ⟨hpos, hmax⟩ := hnarrow.sum_le hlen
  have hheaderFits := forall₂_trans (fun _ _ _ hfits hle => hfits.mono hle) hfits₀ hle
  obtain ⟨header, hheader, hruled, hspans⟩ := printCells_ruled hheaderFits hnarrow
  obtain ⟨border, hborder, hborderLine, hborderSpans⟩ := executorPrintBorder_spans hnarrow
  obtain ⟨lines, hlines, hrows⟩ := exists_mapM (f := printCells widths) (g := (· ++ bytes "\n"))
    (R := fun row line => Ruled widths row line ∧ LineOf ((widths.map (· + 3)).sum + 1) line)
    (l := rows) fun row hrow => by
      obtain ⟨line, hprint, hruled, hspans⟩ := printCells_ruled (hfits row hrow) hnarrow
      have hcell := (h.cells row hrow).2
      have hline := hruled.noLineBreak fun cell hmem => (hcell cell hmem).no_line_break
      exact ⟨line, hprint, hruled, hline, hspans.displayWidth (by omega) (by omega)⟩
  refine ⟨_, ?_, widths, border, header, lines, rfl, hruled, hrows.imp fun _ _ h => h.1, ?_⟩
  · simp [executorPrintTable, h.length_le.not_gt, hheaders, hfold, hheader, hlines, hborder,
      List.flatMap_def]
  · have hborderOf : LineOf ((widths.map (· + 3)).sum + 1) border :=
      ⟨hborderLine, hborderSpans.displayWidth (by omega) (by omega)⟩
    have hheaderLine := hruled.noLineBreak (List.forall_mem_map.mpr h.names)
    have hheaderOf : LineOf ((widths.map (· + 3)).sum + 1) header :=
      ⟨hheaderLine, hspans.displayWidth (by omega) (by omega)⟩
    have hlinesOf := forall_of_forall₂ (fun _ _ h => h.2) hrows
    simp only [List.forall_mem_append, List.forall_mem_cons, List.not_mem_nil, false_imp_iff,
      implies_true, and_true]
    exact ⟨⟨⟨hborderOf, hheaderOf, hborderOf⟩, hlinesOf⟩, hborderOf⟩

end MiniDbms
