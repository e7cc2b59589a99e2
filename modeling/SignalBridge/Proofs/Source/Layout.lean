import SignalBridge.Proofs.Source.Alike
import SignalBridge.Proofs.Source.Placement

namespace SignalBridge.Source

open List (Forall₂)

/-- The same word of a source, wherever it stands. Line breaks may be written in different ways. -/
def SameWord (t u : Token) : Prop :=
  t.kind = u.kind ∧ (t.kind ≠ .newline → t.text = u.text)

instance (t u : Token) : Decidable (SameWord t u) :=
  inferInstanceAs (Decidable (_ ∧ _))

variable {a b : String} {ts us vs : List Token} {t u v : Token}

theorem SameWord.trans (h : SameWord t u) (h' : SameWord u v) : SameWord t v := by
  obtain ⟨hk, ht⟩ := h
  obtain ⟨hk', ht'⟩ := h'
  exact ⟨hk.trans hk', fun hn => (ht hn).trans (ht' (hk ▸ hn))⟩

theorem SameWord.symm (h : SameWord t u) : SameWord u t :=
  ⟨h.1.symm, fun hn => (h.2 (h.1 ▸ hn)).symm⟩

theorem Token.Same.sameWord (h : t.Same u) : SameWord t u :=
  ⟨h.kind, fun _ => h.text⟩

theorem sameWords_trans (h : Forall₂ SameWord ts us) (h' : Forall₂ SameWord us vs) :
    Forall₂ SameWord ts vs := by
  induction h generalizing vs with
  | nil => exact h'
  | cons h _ ih =>
    cases h' with
    | cons h' hs' => exact .cons (h.trans h') (ih hs')

theorem sameWords_symm (h : Forall₂ SameWord ts us) : Forall₂ SameWord us ts :=
  (h.imp fun _ _ => SameWord.symm).flip

theorem joinLines_sameWord (h : Forall₂ SameWord ts us) :
    Forall₂ SameWord (Token.joinLines ts) (Token.joinLines us) :=
  forall₂_joinLines (fun h => h.1)
    (fun h ht hu => (ht.sameWord.trans h).trans hu.sameWord.symm) h

theorem indistinct_sameWord : Indistinct SameWord where
  kind h := h.1
  text h := h.2
  joinLines := joinLines_sameWord

/-- Sources of the same words are scanned alike. -/
theorem alike_scan (ha : tokenize a = .ok ts) (hb : tokenize b = .ok us)
    (h : Forall₂ SameWord ts us) :
    Fits (fun _ _ => True) (AlikeFiles SameWord) (scan a) (scan b) := by
  have hfits := alike_declarations indistinct_sameWord none [] h
  rw [scan, scan, ha, hb]
  change Fits _ _ ((declarations none [] ts).mapError _) ((declarations none [] us).mapError _)
  generalize declarations none [] ts = x, declarations none [] us = y at hfits
  cases hfits with
  | ok h => exact .ok h
  | error _ => exact .error trivial

end SignalBridge.Source
