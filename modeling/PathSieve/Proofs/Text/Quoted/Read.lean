import PathSieve.Proofs.Text.Quoted

/-! Quoted texts are read back. The reader knows an escape by its backslash, so it is enough that a
quote and a backslash never show as they are; which other characters are escaped does not matter. -/

namespace PathSieve.Quoted

lemma read?_digits (n : ℕ) (s : Text) :
    read? (.digits 0) (Text.hexadecimal n ++ s) = read? (.digits n) s := by
  have hdigit : ∀ d < 16, Nat.digitChar d ≠ '\x7d' ∧ hexDigit? (Nat.digitChar d) = some d := by
    decide
  have hstep {d : ℕ} (hd : d < 16) (v : ℕ) (s : Text) :
      read? (.digits v) (Nat.digitChar d :: s) = read? (.digits (v * 16 + d)) s := by
    obtain ⟨hne, hvalue⟩ := hdigit d hd
    rw [read?, if_neg hne, hvalue]
    rfl
  rw [Text.hexadecimal]
  induction n using Nat.strongRecOn generalizing s with
  | ind n ih =>
    rw [Nat.toDigits_eq_if (by decide)]
    split_ifs with hn
    · rw [List.singleton_append, hstep hn, Nat.zero_mul, Nat.zero_add]
    · have hvalue : n / 16 * 16 + n % 16 = n := by omega
      rw [List.append_assoc, ih (n / 16) (by omega), List.singleton_append, hstep (by omega),
        hvalue]

lemma read?_escape (c : Char) (s : Text) :
    read? .plain (escape c ++ s) = (read? .plain s).map fun (t, r) => (c :: t, r) := by
  rw [escape]
  split
  · next e he =>
    have hlong := longEscape?_of_shortEscape? he
    have hne : e ≠ 'u' := by
      rintro rfl
      cases hlong
    rw [List.cons_append, List.singleton_append, read?, read?.eq_5 e s hne, hlong]
    cases read? .plain s <;> rfl
  · next hnone =>
    split_ifs
    · have hcode : codeEscape c ++ s =
          '\\' :: 'u' :: '\x7b' :: (Text.hexadecimal c.toNat ++ '\x7d' :: s) := by simp [codeEscape]
      rw [hcode, read?, read?, read?, if_pos rfl, read?_digits, read?, if_pos rfl, Char.ofNat_toNat]
    · have hquote : c ≠ '"' := by
        rintro rfl
        cases hnone
      have hbackslash : c ≠ '\\' := by
        rintro rfl
        cases hnone
      rw [List.singleton_append, read?.eq_3 c s hquote hbackslash]

lemma unquote?_quote (s rest : Text) : unquote? (quote s ++ rest) = some (s, rest) := by
  have hquote : quote s ++ rest = '"' :: (s.flatMap escape ++ '"' :: rest) := by simp [quote]
  rw [hquote, unquote?]
  induction s with
  | nil => rfl
  | cons c s ih =>
    rw [List.flatMap_cons, List.append_assoc, read?_escape, ih (by simp [quote])]
    rfl

lemma elements?_join {s : Text} {ss : List Text} {fuel : ℕ} (hfuel : ss.length < fuel)
    (rest : Text) :
    elements? fuel (Text.join [',', ' '] ((s :: ss).map quote) ++ ']' :: rest) =
      some (s :: ss, rest) := by
  induction ss generalizing s fuel with
  | nil =>
    obtain ⟨fuel, rfl⟩ := Nat.exists_eq_succ_of_ne_zero (Nat.ne_zero_of_lt hfuel)
    have hjoin : Text.join [',', ' '] ([s].map quote) = quote s := rfl
    rw [hjoin, elements?, unquote?_quote]
    rfl
  | cons t ss ih =>
    obtain ⟨fuel, rfl⟩ := Nat.exists_eq_succ_of_ne_zero (Nat.ne_zero_of_lt hfuel)
    have hrest := ih (s := t) (Nat.lt_of_succ_lt_succ hfuel)
    have hjoin : Text.join [',', ' '] ((s :: t :: ss).map quote) ++ ']' :: rest =
        quote s ++ ',' :: ' ' :: (Text.join [',', ' '] ((t :: ss).map quote) ++ ']' :: rest) := by
      simp [Text.join]
    rw [hjoin, elements?, unquote?_quote]
    exact congrArg (Option.bind · fun read => some (s :: read.1, read.2)) hrest

theorem unlist?_list (ss : List Text) : unlist? (list ss) = some ss := by
  cases ss with
  | nil => rfl
  | cons s ss =>
    have hquotes : ∀ quoted ∈ (s :: ss).map quote, quoted ≠ [] :=
      List.forall_mem_map.mpr fun t _ => List.cons_ne_nil _ _
    have hlength := Text.length_le_length_join [',', ' '] hquotes
    rw [List.length_map, List.length_cons] at hlength
    have hfuel : ss.length < (Text.join [',', ' '] ((s :: ss).map quote) ++ [']']).length := by
      rw [List.length_append]
      omega
    have hlist :
        list (s :: ss) = '[' :: (Text.join [',', ' '] ((s :: ss).map quote) ++ [']']) := rfl
    have hne : Text.join [',', ' '] ((s :: ss).map quote) ++ [']'] ≠ [']'] := by
      simp [Text.join_cons, quote]
    rw [hlist, unlist?.eq_2 _ hne, elements?_join hfuel]
    rfl

end PathSieve.Quoted
