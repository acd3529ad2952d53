import AutoTargeting.Library.JsonFields

namespace Json

def newline : UInt8 := 10

/-- The lines that a text has ended, and what comes after the last of them. -/
def splitLines : Bytes → List Bytes × Bytes
  | [] => ([], [])
  | b :: s =>
    let r := splitLines s
    if b = newline then ([] :: r.1, r.2)
    else
      match r.1 with
      | [] => ([], b :: r.2)
      | l :: ls => ((b :: l) :: ls, r.2)

theorem splitLines_line {l : Bytes} (h : newline ∉ l) (s : Bytes) :
    splitLines (l ++ newline :: s) = (l :: (splitLines s).1, (splitLines s).2) := by
  induction l with
  | nil => rfl
  | cons b l ih =>
    have hb : b ≠ newline := fun hb => h (hb ▸ List.mem_cons_self)
    rw [List.cons_append, splitLines, ih fun hl => h (List.mem_cons_of_mem _ hl), if_neg hb]

theorem splitLines_rest (s : Bytes) : newline ∉ (splitLines s).2 := by
  induction s with
  | nil => simp [splitLines]
  | cons b s ih =>
    rw [splitLines]
    split
    · exact ih
    · rename_i hb
      split
      · simp only [List.mem_cons, not_or]
        exact ⟨fun h => hb h.symm, ih⟩
      · exact ih

/-- What is written behind a text ends its last line. -/
theorem splitLines_append (s t : Bytes) : splitLines (s ++ t) =
    ((splitLines s).1 ++ (splitLines ((splitLines s).2 ++ t)).1,
      (splitLines ((splitLines s).2 ++ t)).2) := by
  induction s with
  | nil => rfl
  | cons b s ih =>
    rw [List.cons_append, splitLines, splitLines]
    split
    · rw [ih]
      rfl
    · rename_i hb
      rw [ih]
      cases hlines : (splitLines s).1 with
      | nil =>
        simp only [List.nil_append, List.cons_append]
        rw [splitLines, if_neg hb]
      | cons l ls => rfl

def Doc.OneLine (d : Doc) : Prop := newline ∉ d.render

theorem newline_notMem_escapeByte (b : UInt8) : newline ∉ escapeByte b := by
  have hslash : newline ≠ backslash := by decide
  rcases escapeByte_cases b with ⟨d, h, hd⟩ | ⟨hlt, h⟩ | ⟨-, -, hge, h⟩
  · have hne : newline ≠ d := by
      rintro rfl
      have hnone : simpleEscape newline = none := by decide
      cases hnone.symm.trans hd
    rw [h]
    simp [hslash, hne]
  · have hdigits : ∀ n < 32, newline ∉
        ([92, 117, 48, 48, hexDigit (n / 16), hexDigit (n % 16)] : Bytes) := by decide
    rw [h]
    exact hdigits b.toNat (UInt8.lt_iff_toNat_lt.mp hlt)
  · rw [h]
    intro hmem
    obtain rfl := List.mem_singleton.mp hmem
    exact hge (by decide)

theorem newline_notMem_escape (s : Bytes) : newline ∉ escape escapeByte s := by
  intro h
  obtain ⟨b, -, hb⟩ := List.mem_flatMap.mp h
  exact newline_notMem_escapeByte b hb

@[simp]
theorem oneLine_number (n : Numeral) : (Doc.number n).OneLine := by
  intro h
  have hbyte := List.all_eq_true.mp (isNumeral_bytes n.wf).2 _ h
  exact absurd hbyte (by decide)

@[simp]
theorem oneLine_int (k : ℤ) : (Doc.int k).OneLine := oneLine_number _

@[simp]
theorem oneLine_null : Doc.null.OneLine := by
  show newline ∉ _
  decide

@[simp]
theorem oneLine_string (s : String) : (Doc.string s).OneLine := by
  intro h
  have hraw : newline ∈ quote :: (escape escapeByte (utf8 s) ++ [quote]) := h
  have hquote : newline ≠ quote := by decide
  simp only [List.mem_cons, List.mem_append, hquote, false_or, List.not_mem_nil, or_false] at hraw
  exact newline_notMem_escape _ hraw

theorem newline_notMem_renderItems {ds : List Doc} (h : ∀ d ∈ ds, d.OneLine) :
    newline ∉ renderItems ds := by
  have hcomma : newline ≠ comma := by decide
  induction ds with
  | nil => simp [renderItems]
  | cons d ds ih =>
    have hd : newline ∉ d.render := h d List.mem_cons_self
    have hds := ih fun d hd => h d (List.mem_cons_of_mem _ hd)
    cases ds with
    | nil => simpa [renderItems] using hd
    | cons d' ds => simp [renderItems, hd, hds, hcomma]

@[simp]
theorem oneLine_array {items : List Doc} (h : ∀ d ∈ items, d.OneLine) : (Doc.array items).OneLine := by
  have hopen : newline ≠ openBracket := by decide
  have hclose : newline ≠ closeBracket := by decide
  have hitems := newline_notMem_renderItems h
  simp [Doc.OneLine, Doc.render, hopen, hclose, hitems]

theorem newline_notMem_renderFields {fs : List (String × Doc)} (h : ∀ f ∈ fs, f.2.OneLine) :
    newline ∉ renderFields (fs.map fun f => (escape escapeByte (utf8 f.1), f.2)) := by
  have hcomma : newline ≠ comma := by decide
  have hquote : newline ≠ quote := by decide
  have hcolon : newline ≠ colon := by decide
  induction fs with
  | nil => simp [renderFields]
  | cons f fs ih =>
    have hf : newline ∉ f.2.render := h f List.mem_cons_self
    have hkey := newline_notMem_escape (utf8 f.1)
    have hfs := ih fun f hf => h f (List.mem_cons_of_mem _ hf)
    cases fs with
    | nil => simp [renderFields, hkey, hf, hquote, hcolon]
    | cons f' fs =>
      simp only [List.map_cons] at hfs ⊢
      simp [renderFields, hkey, hf, hquote, hcolon, hcomma, hfs]

@[simp]
theorem oneLine_struct {fields : List (String × Doc)} (h : ∀ f ∈ fields, f.2.OneLine) :
    (Doc.struct fields).OneLine := by
  have hopen : newline ≠ openBrace := by decide
  have hclose : newline ≠ closeBrace := by decide
  have hfields := newline_notMem_renderFields h
  simp [Doc.OneLine, Doc.struct, Doc.render, hopen, hclose, hfields]

/-- What becomes of a line that is appended: of a torn one, some first bytes are there, and not its
end. -/
inductive Appended
  | whole
  | torn (bytes : ℕ)
  deriving DecidableEq, Repr

def appendedBytes : Doc × Appended → Bytes
  | (d, .whole) => d.render ++ [newline]
  | (d, .torn bytes) => d.render.take bytes

/-- A log after these appends. -/
def logText (es : List (Doc × Appended)) : Bytes := es.flatMap appendedBytes

/-- The documents whose line has nothing else on it: the line was written whole, and nothing was
left behind before it. -/
def intact : Bool → List (Doc × Appended) → List Doc
  | _, [] => []
  | true, (d, .whole) :: es => d :: intact true es
  | false, (_, .whole) :: es => intact true es
  | clean, (_, .torn bytes) :: es => intact (clean && bytes == 0) es

def tornCount (es : List (Doc × Appended)) : ℕ := es.countP fun e => e.2 ≠ .whole

theorem intact_sublist {es : List (Doc × Appended)} (h : ∀ e ∈ es, e.1.OneLine) (left : Bytes)
    (hleft : newline ∉ left) (clean : Bool) (hclean : clean = true → left = []) :
    ((intact clean es).map Doc.render).Sublist (splitLines (left ++ logText es)).1 := by
  induction es generalizing left clean with
  | nil =>
    rw [intact]
    exact List.nil_sublist _
  | cons e es ih =>
    obtain ⟨d, appended⟩ := e
    have hd : newline ∉ d.render := h _ List.mem_cons_self
    have hes : ∀ e ∈ es, e.1.OneLine := fun e he => h e (List.mem_cons_of_mem _ he)
    cases appended with
    | whole =>
      have htext : left ++ logText ((d, .whole) :: es) =
          (left ++ d.render) ++ newline :: logText es := by
        simp [logText, appendedBytes]
      have hline : newline ∉ left ++ d.render := by simp [hleft, hd]
      have hrest := ih hes [] (by simp) true fun _ => rfl
      rw [htext, splitLines_line hline]
      cases clean with
      | true =>
        rw [hclean rfl]
        exact hrest.cons_cons _
      | false => exact hrest.cons _
    | torn bytes =>
      have htext : left ++ logText ((d, .torn bytes) :: es) =
          (left ++ d.render.take bytes) ++ logText es := by
        simp [logText, appendedBytes]
      rw [htext, intact]
      apply ih hes
      · simp only [List.mem_append, not_or]
        exact ⟨hleft, fun hmem => hd (List.mem_of_mem_take hmem)⟩
      · intro hboth
        obtain ⟨hc, hb⟩ := Bool.and_eq_true_iff.mp hboth
        rw [hclean hc, beq_iff_eq.mp hb]
        rfl

/-- A torn line spoils at most one line besides its own. -/
theorem length_le_intact (es : List (Doc × Appended)) (clean : Bool) :
    es.length ≤ (intact clean es).length + 2 * tornCount es + (if clean then 0 else 1) := by
  induction es generalizing clean with
  | nil => simp
  | cons e es ih =>
    obtain ⟨d, appended⟩ := e
    cases appended with
    | whole =>
      have hrest := ih true
      have hcount : tornCount ((d, .whole) :: es) = tornCount es := by simp [tornCount]
      rw [hcount]
      cases clean with
      | true =>
        simp only [intact, List.length_cons, if_true] at hrest ⊢
        omega
      | false =>
        simp only [intact, List.length_cons, if_true] at hrest ⊢
        simp
        omega
    | torn bytes =>
      have hrest := ih (clean && bytes == 0)
      have hcount : tornCount ((d, .torn bytes) :: es) = tornCount es + 1 := by simp [tornCount]
      have hle : (if (clean && bytes == 0) = true then 0 else 1) ≤ 1 := by split <;> omega
      rw [hcount, intact, List.length_cons]
      omega

end Json
