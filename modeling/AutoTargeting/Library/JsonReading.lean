import AutoTargeting.Library.Json

namespace Json

mutual

/-- The tokens have no delimiters in them, and the strings no closing quotes. -/
def Doc.WellFormed : Doc → Prop
  | .scalar token => token ≠ [] ∧ ∀ b ∈ token, isDelimiter b = false
  | .quoted raw => Closed raw
  | .array items => WellFormedItems items
  | .object fields => WellFormedFields fields

def WellFormedItems : List Doc → Prop
  | [] => True
  | d :: ds => d.WellFormed ∧ WellFormedItems ds

def WellFormedFields : List (Bytes × Doc) → Prop
  | [] => True
  | (key, d) :: fs => Closed key ∧ d.WellFormed ∧ WellFormedFields fs

end

mutual

def Doc.calls : Doc → ℕ
  | .scalar _ => 1
  | .quoted _ => 1
  | .array items => 1 + callsItems items
  | .object fields => 1 + callsFields fields

def callsItems : List Doc → ℕ
  | [] => 0
  | d :: ds => 1 + d.calls + callsItems ds

def callsFields : List (Bytes × Doc) → ℕ
  | [] => 0
  | (_, d) :: fs => 1 + d.calls + callsFields fs

end

def Ends (rest : Bytes) : Prop := ∀ b, rest.head? = some b → isDelimiter b = true

theorem ends_nil : Ends [] := by
  intro b h
  simp at h

theorem ends_cons {b : UInt8} (h : isDelimiter b = true) (s : Bytes) : Ends (b :: s) := by
  intro c hc
  have hbc : b = c := by simpa using hc
  exact hbc ▸ h

theorem skipSpace_cons {b : UInt8} (h : isSpace b = false) (s : Bytes) :
    skipSpace (b :: s) = b :: s := by
  simp [skipSpace, h]

theorem isSpace_of_not_delimiter {b : UInt8} (h : isDelimiter b = false) : isSpace b = false := by
  unfold isDelimiter at h
  simp only [Bool.or_eq_false_iff] at h
  exact h.1

theorem takeWhile_token {token rest : Bytes} (h : ∀ b ∈ token, isDelimiter b = false)
    (hrest : Ends rest) :
    (token ++ rest).takeWhile (!isDelimiter ·) = token ∧
      (token ++ rest).dropWhile (!isDelimiter ·) = rest := by
  have htoken : ∀ b ∈ token, (!isDelimiter b) = true := fun b hb => by simp [h b hb]
  have hstop : rest.takeWhile (!isDelimiter ·) = [] ∧ rest.dropWhile (!isDelimiter ·) = rest := by
    cases rest with
    | nil => simp
    | cons b s => simp [hrest b rfl]
  rw [List.takeWhile_append_of_pos htoken, List.dropWhile_append_of_pos htoken, hstop.1, hstop.2]
  simp

/-- The head of a written document is no space, and closes nothing. -/
theorem render_head {d : Doc} (h : d.WellFormed) :
    ∃ b s, d.render = b :: s ∧ isSpace b = false ∧ b ≠ closeBracket ∧ b ≠ closeBrace := by
  cases d with
  | scalar token =>
    obtain ⟨hne, hall⟩ := h
    cases token with
    | nil => simp at hne
    | cons b s =>
      have hb := hall b (by simp)
      refine ⟨b, s, rfl, isSpace_of_not_delimiter hb, ?_, ?_⟩ <;> rintro rfl <;> simp [isDelimiter] at hb
  | quoted raw => exact ⟨quote, _, rfl, by decide, by decide, by decide⟩
  | array items => exact ⟨openBracket, _, rfl, by decide, by decide, by decide⟩
  | object fields => exact ⟨openBrace, _, rfl, by decide, by decide, by decide⟩

theorem parseValue_scalar {token rest : Bytes} {fuel limit : ℕ}
    (h : (Doc.scalar token).WellFormed) (hrest : Ends rest) :
    parseValue (fuel + 1) limit (token ++ rest) = (readScalar token).map (·, rest) := by
  obtain ⟨hne, hall⟩ := h
  cases token with
  | nil => simp at hne
  | cons b s =>
    have hb := hall b (by simp)
    obtain ⟨htake, hdrop⟩ := takeWhile_token hall hrest
    have hdelim : b ≠ quote ∧ b ≠ openBracket ∧ b ≠ openBrace := by
      refine ⟨?_, ?_, ?_⟩ <;> rintro rfl <;> simp [isDelimiter] at hb
    rw [List.cons_append] at htake hdrop ⊢
    rw [parseValue, skipSpace_cons (isSpace_of_not_delimiter hb)]
    simp only [if_neg hdelim.1, if_neg hdelim.2.1, if_neg hdelim.2.2, htake, hdrop]

theorem parseValue_quoted {raw rest : Bytes} {fuel limit : ℕ} (h : Closed raw) :
    parseValue (fuel + 1) limit ((Doc.quoted raw).render ++ rest) =
      ((Doc.quoted raw).read limit).map (·, rest) := by
  have hsplit := splitQuoted_closed h rest
  have hrender : (Doc.quoted raw).render ++ rest = quote :: (raw ++ quote :: rest) := by
    simp [Doc.render]
  rw [hrender, parseValue, skipSpace_cons (by decide)]
  simp only [if_true, hsplit, Doc.read]
  cases h : readString raw <;> simp [h]

theorem renderItems_cons (d : Doc) (ds : List Doc) (tail : Bytes) :
    ∃ s, renderItems (d :: ds) ++ tail = d.render ++ s := by
  cases ds with
  | nil => exact ⟨tail, by rw [renderItems]⟩
  | cons d' ds => exact ⟨_, by rw [renderItems, List.append_assoc]⟩

theorem renderFields_head (f : Bytes × Doc) (fs : List (Bytes × Doc)) :
    (renderFields (f :: fs)).head? = some quote := by
  cases fs <;> simp [renderFields]

theorem skipSpace_comma (s : Bytes) : skipSpace (comma :: s) = comma :: s :=
  skipSpace_cons (by decide) s

theorem skipSpace_closeBracket (s : Bytes) : skipSpace (closeBracket :: s) = closeBracket :: s :=
  skipSpace_cons (by decide) s

theorem skipSpace_closeBrace (s : Bytes) : skipSpace (closeBrace :: s) = closeBrace :: s :=
  skipSpace_cons (by decide) s

mutual

/-- The reader takes a written document for what it stands for, and stops at its end. -/
theorem parseValue_render : ∀ (d : Doc) (fuel limit : ℕ) (rest : Bytes), d.WellFormed →
    d.calls ≤ fuel → Ends rest →
    parseValue fuel limit (d.render ++ rest) = (d.read limit).map (·, rest)
  | .scalar token, fuel, limit, rest, h, hfuel, hrest => by
    obtain ⟨fuel, rfl⟩ : ∃ k, fuel = k + 1 := ⟨fuel - 1, by simp only [Doc.calls] at hfuel; omega⟩
    simpa only [Doc.render, Doc.read] using parseValue_scalar h hrest
  | .quoted raw, fuel, limit, rest, h, hfuel, _ => by
    obtain ⟨fuel, rfl⟩ : ∃ k, fuel = k + 1 := ⟨fuel - 1, by simp only [Doc.calls] at hfuel; omega⟩
    exact parseValue_quoted h
  | .array [], fuel, limit, rest, h, hfuel, _ => by
    obtain ⟨fuel, rfl⟩ : ∃ k, fuel = k + 1 := ⟨fuel - 1, by simp only [Doc.calls] at hfuel; omega⟩
    change parseValue (fuel + 1) limit (openBracket :: closeBracket :: rest) = _
    rw [parseValue, skipSpace_cons (by decide)]
    simp only [skipSpace_closeBracket, if_neg (show openBracket ≠ quote by decide), if_true,
      List.head?_cons, List.tail_cons]
    cases limit <;> rfl
  | .array (d :: ds), fuel, limit, rest, h, hfuel, _ => by
    simp only [Doc.calls] at hfuel
    obtain ⟨fuel, rfl⟩ : ∃ k, fuel = k + 1 := ⟨fuel - 1, by omega⟩
    have hrender : (Doc.array (d :: ds)).render ++ rest =
        openBracket :: (renderItems (d :: ds) ++ closeBracket :: rest) := by simp [Doc.render]
    -- the reader asks for a closing bracket first, and no item begins with one
    obtain ⟨b, s, hd, hspace, hclose, -⟩ := render_head h.1
    obtain ⟨t, ht⟩ := renderItems_cons d ds (closeBracket :: rest)
    have hhead : (skipSpace (renderItems (d :: ds) ++ closeBracket :: rest)).head? = some b := by
      rw [ht, hd, List.cons_append, skipSpace_cons hspace, List.head?_cons]
    have hne : ¬ some b = some closeBracket := by simpa using hclose
    rw [hrender, parseValue, skipSpace_cons (by decide)]
    simp only [hhead, hne, if_true, if_false, if_neg (show openBracket ≠ quote by decide)]
    cases limit with
    | zero => rfl
    | succ limit =>
      have hitems := parseItems_render d ds fuel limit rest h (by omega)
      simp only [hitems, Doc.read]
      cases readItems limit (d :: ds) <;> rfl
  | .object [], fuel, limit, rest, h, hfuel, _ => by
    obtain ⟨fuel, rfl⟩ : ∃ k, fuel = k + 1 := ⟨fuel - 1, by simp only [Doc.calls] at hfuel; omega⟩
    change parseValue (fuel + 1) limit (openBrace :: closeBrace :: rest) = _
    rw [parseValue, skipSpace_cons (by decide)]
    simp only [skipSpace_closeBrace, if_neg (show openBrace ≠ quote by decide),
      if_neg (show openBrace ≠ openBracket by decide), if_true, List.head?_cons, List.tail_cons]
    cases limit <;> rfl
  | .object ((key, d) :: fs), fuel, limit, rest, h, hfuel, _ => by
    simp only [Doc.calls] at hfuel
    obtain ⟨fuel, rfl⟩ : ∃ k, fuel = k + 1 := ⟨fuel - 1, by omega⟩
    have hrender : (Doc.object ((key, d) :: fs)).render ++ rest =
        openBrace :: (renderFields ((key, d) :: fs) ++ closeBrace :: rest) := by simp [Doc.render]
    have hhead : (skipSpace (renderFields ((key, d) :: fs) ++ closeBrace :: rest)).head? =
        some quote := by
      have hq := renderFields_head (key, d) fs
      cases hr : renderFields ((key, d) :: fs) with
      | nil => simp [hr] at hq
      | cons b s =>
        obtain rfl : b = quote := by simpa [hr] using hq
        rw [List.cons_append, skipSpace_cons (by decide), List.head?_cons]
    have hne : ¬ some quote = some closeBrace := by decide
    rw [hrender, parseValue, skipSpace_cons (by decide)]
    simp only [hhead, hne, if_true, if_false, if_neg (show openBrace ≠ quote by decide),
      if_neg (show openBrace ≠ openBracket by decide)]
    cases limit with
    | zero => rfl
    | succ limit =>
      have hfields := parseFields_render key d fs fuel limit rest h (by omega)
      simp only [hfields, Doc.read]
      cases readFields limit ((key, d) :: fs) <;> rfl
termination_by d => d.calls
decreasing_by all_goals simp only [Doc.calls]; omega

theorem parseItems_render : ∀ (d : Doc) (ds : List Doc) (fuel limit : ℕ) (rest : Bytes),
    WellFormedItems (d :: ds) → callsItems (d :: ds) ≤ fuel →
    parseItems fuel limit (renderItems (d :: ds) ++ closeBracket :: rest) =
      (readItems limit (d :: ds)).map (·, rest)
  | d, [], fuel, limit, rest, h, hfuel => by
    simp only [callsItems] at hfuel
    obtain ⟨fuel, rfl⟩ : ∃ k, fuel = k + 1 := ⟨fuel - 1, by omega⟩
    have hd := parseValue_render d fuel limit (closeBracket :: rest) h.1 (by omega)
      (ends_cons (by decide) _)
    rw [renderItems, parseItems, hd]
    simp only [readItems]
    cases d.read limit with
    | none => rfl
    | some v =>
      simp only [Option.map_some, Option.bind_eq_bind, Option.bind_some, skipSpace_closeBracket,
        if_true, if_neg (show closeBracket ≠ comma by decide)]
  | d, d' :: ds, fuel, limit, rest, h, hfuel => by
    simp only [callsItems] at hfuel
    obtain ⟨fuel, rfl⟩ : ∃ k, fuel = k + 1 := ⟨fuel - 1, by omega⟩
    have hd := parseValue_render d fuel limit
      (comma :: (renderItems (d' :: ds) ++ closeBracket :: rest)) h.1 (by omega)
      (ends_cons (by decide) _)
    have hds := parseItems_render d' ds fuel limit rest h.2 (by simp only [callsItems]; omega)
    rw [renderItems, List.append_assoc, List.cons_append, parseItems, hd, readItems]
    cases d.read limit with
    | none => rfl
    | some v =>
      simp only [Option.map_some, Option.bind_eq_bind, Option.bind_some, skipSpace_comma, if_true, hds]
      cases readItems limit (d' :: ds) <;> rfl
termination_by d ds => callsItems (d :: ds)
decreasing_by all_goals simp only [callsItems]; omega

theorem parseFields_render : ∀ (key : Bytes) (d : Doc) (fs : List (Bytes × Doc))
    (fuel limit : ℕ) (rest : Bytes), WellFormedFields ((key, d) :: fs) →
    callsFields ((key, d) :: fs) ≤ fuel →
    parseFields fuel limit (renderFields ((key, d) :: fs) ++ closeBrace :: rest) =
      (readFields limit ((key, d) :: fs)).map (·, rest)
  | key, d, [], fuel, limit, rest, h, hfuel => by
    simp only [callsFields] at hfuel
    obtain ⟨fuel, rfl⟩ : ∃ k, fuel = k + 1 := ⟨fuel - 1, by omega⟩
    have hd := parseValue_render d fuel limit (closeBrace :: rest) h.2.1 (by omega)
      (ends_cons (by decide) _)
    have hkey := splitQuoted_closed h.1 (colon :: (d.render ++ closeBrace :: rest))
    rw [renderFields, List.cons_append, List.append_assoc, List.cons_append, List.cons_append,
      parseFields, skipSpace_cons (by decide), readFields]
    simp only [if_true, hkey, Option.bind_eq_bind, Option.bind_some]
    cases readString key with
    | none => rfl
    | some k =>
      simp only [Option.bind_some, skipSpace_cons (show isSpace colon = false by decide), if_true, hd]
      cases d.read limit with
      | none => rfl
      | some v =>
        simp only [Option.map_some, Option.bind_some, skipSpace_closeBrace, if_true,
          if_neg (show closeBrace ≠ comma by decide)]
        rfl
  | key, d, f :: fs, fuel, limit, rest, h, hfuel => by
    simp only [callsFields] at hfuel
    obtain ⟨fuel, rfl⟩ : ∃ k, fuel = k + 1 := ⟨fuel - 1, by omega⟩
    have hd := parseValue_render d fuel limit
      (comma :: (renderFields (f :: fs) ++ closeBrace :: rest)) h.2.1 (by omega)
      (ends_cons (by decide) _)
    have hkey := splitQuoted_closed h.1
      (colon :: (d.render ++ comma :: (renderFields (f :: fs) ++ closeBrace :: rest)))
    have hfs := parseFields_render f.1 f.2 fs fuel limit rest h.2.2 (by simp only [callsFields]; omega)
    rw [renderFields, List.cons_append, List.append_assoc, List.cons_append, List.cons_append,
      List.append_assoc, List.cons_append, parseFields, skipSpace_cons (by decide), readFields]
    simp only [if_true, hkey, Option.bind_eq_bind, Option.bind_some]
    cases readString key with
    | none => rfl
    | some k =>
      simp only [Option.bind_some, skipSpace_cons (show isSpace colon = false by decide), if_true, hd]
      cases d.read limit with
      | none => rfl
      | some v =>
        simp only [Option.map_some, Option.bind_some, skipSpace_comma, if_true, hfs]
        cases readFields limit (f :: fs) <;> rfl
termination_by key d fs => callsFields ((key, d) :: fs)
decreasing_by all_goals simp only [callsFields]; omega

end

mutual

theorem calls_le_length : ∀ d : Doc, d.WellFormed → d.calls ≤ d.render.length
  | .scalar token, h => by
    have hlen := List.length_pos_iff.mpr h.1
    simp only [Doc.calls, Doc.render]
    omega
  | .quoted raw, _ => by simp [Doc.calls, Doc.render]
  | .array items, h => by
    have hitems := callsItems_le_length items h
    simp only [Doc.calls, Doc.render, List.length_cons, List.length_append, List.length_nil]
    omega
  | .object fields, h => by
    have hfields := callsFields_le_length fields h
    simp only [Doc.calls, Doc.render, List.length_cons, List.length_append, List.length_nil]
    omega

theorem callsItems_le_length : ∀ ds : List Doc, WellFormedItems ds →
    callsItems ds ≤ (renderItems ds).length + 1
  | [], _ => by simp [callsItems]
  | [d], h => by
    have hd := calls_le_length d h.1
    simp only [callsItems, renderItems]
    omega
  | d :: d' :: ds, h => by
    have hd := calls_le_length d h.1
    have hds := callsItems_le_length (d' :: ds) h.2
    rw [callsItems, renderItems, List.length_append, List.length_cons]
    omega

theorem callsFields_le_length : ∀ fs : List (Bytes × Doc), WellFormedFields fs →
    callsFields fs ≤ (renderFields fs).length + 1
  | [], _ => by simp [callsFields]
  | [(key, d)], h => by
    have hd := calls_le_length d h.2.1
    simp only [callsFields, renderFields, List.length_cons, List.length_append]
    omega
  | (key, d) :: f :: fs, h => by
    have hd := calls_le_length d h.2.1
    have hfs := callsFields_le_length (f :: fs) h.2.2
    rw [callsFields, renderFields]
    simp only [List.length_cons, List.length_append]
    omega

end

/-- A written document is read for what it stands for. -/
theorem parse_render {d : Doc} (h : d.WellFormed) : parse d.render = d.read maxLevels := by
  have hcalls := calls_le_length d h
  have hvalue := parseValue_render d (d.render.length + 1) maxLevels [] h (by omega) ends_nil
  rw [List.append_nil] at hvalue
  rw [parse, hvalue]
  cases d.read maxLevels <;> rfl

end Json
