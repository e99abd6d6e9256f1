import Mathlib.Data.List.Basic
import Mathlib.Data.Option.Basic

/-!
# Python strings

A Python `str` is a sequence of code points, and a code point need not be a
Unicode scalar value: a lone surrogate is a legal element. Lean's `Char` excludes
surrogates, so a `str` is modelled as a list of `PyChar`.

The difference matters in exactly one place, `str.encode("utf-8")`, which raises
on the first surrogate it meets.
-/

namespace Intake

/-- One code point of a Python `str`. -/
inductive PyChar where
  /-- A Unicode scalar value. -/
  | scalar (c : Char)
  /-- The lone surrogate `U+D800 + n`. -/
  | surrogate (n : Fin 2048)
  deriving DecidableEq, Repr

/-- A Python `str`. -/
abbrev PyStr := List PyChar

namespace PyStr

/-- A string literal of the source. -/
def ofString (s : String) : PyStr := s.toList.map PyChar.scalar

instance : Coe String PyStr := ⟨ofString⟩

/-- The scalar values of a string, if it holds no surrogate. -/
def scalars? : PyStr → Option (List Char)
  | [] => some []
  | .scalar c :: s => (scalars? s).map (c :: ·)
  | .surrogate _ :: _ => none

/-- `str.encode("utf-8")`; `none` is the `UnicodeEncodeError` a surrogate raises. -/
def encode (s : PyStr) : Option ByteArray :=
  (scalars? s).map fun cs => (String.ofList cs).toByteArray

/-- No code point of the string is a lone surrogate. -/
def Encodable (s : PyStr) : Prop := (scalars? s).isSome

instance (s : PyStr) : Decidable (Encodable s) := inferInstanceAs (Decidable (_ = true))

/--
`"sha256:" + hashlib.sha256(value.encode("utf-8")).hexdigest()`, which the source
writes out three times. The hex digest is a parameter.
-/
def sha256Text (hexdigest : ByteArray → String) (value : PyStr) : Option PyStr :=
  (encode value).map fun bytes => ofString "sha256:" ++ ofString (hexdigest bytes)

/-- What a hex digest is written with. -/
def hexDigits : List Char := ['0', '1', '2', '3', '4', '5', '6', '7', '8', '9', 'a', 'b', 'c', 'd', 'e', 'f']

/-- `sep.join(parts)` -/
def join (sep : PyStr) (parts : List PyStr) : PyStr := sep.intercalate parts

theorem scalars?_map_scalar (cs : List Char) : scalars? (cs.map PyChar.scalar) = some cs := by
  induction cs with
  | nil => rfl
  | cons c cs ih => simp [scalars?, ih]

theorem eq_of_scalars? : ∀ {s : PyStr} {cs : List Char}, scalars? s = some cs → s = cs.map PyChar.scalar
  | [], cs, h => by
      obtain rfl : [] = cs := Option.some.inj h
      rfl
  | .scalar c :: s, cs, h => by
      obtain ⟨cs', hcs', rfl⟩ := Option.map_eq_some_iff.mp h
      rw [eq_of_scalars? hcs', List.map_cons]
  | .surrogate _ :: _, _, h => absurd h (by simp [scalars?])

theorem encode_isSome {s : PyStr} : (encode s).isSome ↔ Encodable s := by
  simp [encode, Encodable]

theorem sha256Text_isSome {hexdigest : ByteArray → String} {s : PyStr} :
    (sha256Text hexdigest s).isSome ↔ Encodable s := by
  rw [sha256Text, Option.isSome_map, encode_isSome]

/-- UTF-8 is injective on the strings it encodes. -/
theorem encode_inj {s t : PyStr} {b : ByteArray} (hs : encode s = some b) (ht : encode t = some b) :
    s = t := by
  obtain ⟨cs, hcs, hbs⟩ := Option.map_eq_some_iff.mp hs
  obtain ⟨ds, hds, hbt⟩ := Option.map_eq_some_iff.mp ht
  have hstr : String.ofList cs = String.ofList ds :=
    String.toByteArray_inj.mp (hbs.trans hbt.symm)
  rw [eq_of_scalars? hcs, eq_of_scalars? hds, String.ofList_injective hstr]

theorem ofString_inj {s t : String} (h : ofString s = ofString t) : s = t :=
  String.toList_injective (List.map_injective_iff.mpr (fun _ _ hc => PyChar.scalar.inj hc) h)

theorem encodable_ofString (s : String) : Encodable (ofString s) := by
  simp [Encodable, ofString, scalars?_map_scalar]

theorem encodable_append {s t : PyStr} : Encodable (s ++ t) ↔ Encodable s ∧ Encodable t := by
  induction s with
  | nil => simp [Encodable, scalars?]
  | cons c s ih =>
      cases c with
      | scalar c => simpa [Encodable, scalars?] using ih
      | surrogate n => simp [Encodable, scalars?]

theorem encodable_iff {s : PyStr} : Encodable s ↔ ∀ n, PyChar.surrogate n ∉ s := by
  induction s with
  | nil => simp [Encodable, scalars?]
  | cons c s ih =>
      cases c with
      | scalar c => simpa [Encodable, scalars?] using ih
      | surrogate n => simpa [Encodable, scalars?] using ⟨n, fun h => absurd rfl h⟩

/-- **Equal digests, equal texts**, if the hash does not collide. -/
theorem sha256Text_inj {hexdigest : ByteArray → String} (hinj : Function.Injective hexdigest) {s t d : PyStr}
    (hs : sha256Text hexdigest s = some d) (ht : sha256Text hexdigest t = some d) : s = t := by
  obtain ⟨b, hb, rfl⟩ := Option.map_eq_some_iff.mp hs
  obtain ⟨b', hb', hdigest⟩ := Option.map_eq_some_iff.mp ht
  have hbytes : b' = b := hinj (ofString_inj (List.append_cancel_left hdigest))
  rw [hbytes] at hb'
  exact encode_inj hb hb'

/-- A digest can be hashed again. -/
theorem encodable_of_sha256Text {hexdigest : ByteArray → String} {s t : PyStr}
    (h : sha256Text hexdigest s = some t) : Encodable t := by
  obtain ⟨bytes, _, rfl⟩ := Option.map_eq_some_iff.mp h
  exact encodable_append.mpr ⟨encodable_ofString _, encodable_ofString _⟩

theorem encodable_join {sep : PyStr} (hsep : Encodable sep) {parts : List PyStr}
    (h : ∀ s ∈ parts, Encodable s) : Encodable (join sep parts) := by
  induction parts with
  | nil => rfl
  | cons s parts ih =>
      have hs := h s List.mem_cons_self
      have hrest := ih fun t ht => h t (List.mem_cons_of_mem _ ht)
      cases parts with
      | nil => simpa [join] using hs
      | cons t parts =>
          rw [join, List.intercalate_cons_cons, encodable_append, encodable_append]
          exact ⟨⟨hs, hsep⟩, hrest⟩

end PyStr

/-! ## A digest without collisions -/

namespace Sample

/-- A byte, as two hex digits. -/
def hexByte (b : UInt8) : List Char := [Nat.digitChar (b.toNat / 16), Nat.digitChar (b.toNat % 16)]

/-- The bytes themselves, in hex. -/
def hexdigest (bytes : ByteArray) : String := String.ofList (bytes.data.toList.flatMap hexByte)

theorem digitChar_inj : ∀ a b : Fin 16, Nat.digitChar a = Nat.digitChar b → a = b := by decide

theorem hexByte_inj {a b : UInt8} (h : hexByte a = hexByte b) : a = b := by
  have ha := a.toNat_lt
  have hb := b.toNat_lt
  obtain ⟨hhigh, hlow⟩ := List.cons.inj h
  have hdiv := digitChar_inj ⟨a.toNat / 16, by omega⟩ ⟨b.toNat / 16, by omega⟩ hhigh
  have hmod := digitChar_inj ⟨a.toNat % 16, by omega⟩ ⟨b.toNat % 16, by omega⟩ (List.cons.inj hlow).1
  rw [Fin.mk.injEq] at hdiv hmod
  refine UInt8.toNat_inj.mp ?_
  omega

theorem hexdigest_injective : Function.Injective hexdigest := by
  have hflat : ∀ l l' : List UInt8, l.flatMap hexByte = l'.flatMap hexByte → l = l' := by
    intro l
    induction l with
    | nil =>
        intro l' h
        cases l' with
        | nil => rfl
        | cons b l' => cases h
    | cons a l ih =>
        intro l' h
        cases l' with
        | nil => cases h
        | cons b l' =>
            rw [List.flatMap_cons, List.flatMap_cons] at h
            obtain ⟨hbyte, hrest⟩ := List.append_inj h rfl
            rw [hexByte_inj hbyte, ih l' hrest]
  intro x y h
  exact ByteArray.ext (Array.ext' (hflat _ _ (String.ofList_injective h)))

theorem hexdigest_hex (bytes : ByteArray) : ∀ c ∈ (hexdigest bytes).toList, c ∈ PyStr.hexDigits := by
  have hdigit : ∀ d : Fin 16, Nat.digitChar d ∈ PyStr.hexDigits := by decide
  intro c hc
  rw [hexdigest, String.toList_ofList] at hc
  obtain ⟨b, _, hb⟩ := List.mem_flatMap.mp hc
  have hlt := b.toNat_lt
  rcases List.mem_cons.mp hb with rfl | hb
  · exact hdigit ⟨b.toNat / 16, by omega⟩
  · rw [List.mem_singleton.mp hb]
    exact hdigit ⟨b.toNat % 16, by omega⟩

end Sample

end Intake
