import TxForensics.Proofs.Source.Function
import TxForensics.Resolution.PcMap

/-!
# The function that comes with a position

A site pairs the position of a pc with the function that `functionAt?` reports for its line. That
function is the nearest declaration at or above the line, whether or not its body reaches so far:
it begins at or before the position, but a position behind its end, such as a state variable after
the last function, still gets it (`site_behind_function`). When the function does enclose the
position is said exactly by the code between its declaration and the position's line.
-/

namespace TxForensics.PcMap

/-- A site is the position of the pc, with the function of its line if functions are asked for. -/
theorem site?_eq_some_iff {m : PcMap} {pc : Nat} {site : SourceSite} :
    m.site? pc = some site ↔ m.position? pc = some site.position ∧
      site.function =
        if m.withFunction then m.source.functionAt? site.position.line.toNat else none := by
  unfold site?
  simp only [Option.bind_eq_bind, Option.bind_eq_some_iff, Option.pure_def, Option.some.injEq]
  constructor
  · rintro ⟨position, hposition, rfl⟩
    exact ⟨hposition, rfl⟩
  · rintro ⟨hposition, hfunction⟩
    exact ⟨site.position, hposition, by rw [← hfunction]⟩

/-- **When the function of a site encloses its position.** It never begins behind the position, and
it reaches the position exactly when its body, scanned from the line of its declaration, does not
end on a line before the position's. -/
theorem function_encloses_iff {code : Bytes} {map source : String} {settings : Settings} {pc : Nat}
    {site : SourceSite} {f : EnclosingFunction}
    (hsite : (build code map source settings).site? pc = some site)
    (hf : site.function = some f) :
    f.firstLine ≤ site.position.line ∧
      (site.position.line ≤ f.lastLine ↔
        ¬ Declaration.EndsWithin []
          (Declaration.codeBefore ⟨source⟩ f.firstLine.toNat site.position.line.toNat)) := by
  have hfunction : (SourceFile.mk source).functionAt? site.position.line.toNat = some f := by
    rw [(site?_eq_some_iff.mp hsite).2] at hf
    split at hf
    · exact hf
    · cases hf
  obtain ⟨-, hline, habove, hlast, -, -⟩ := SourceFile.functionAt?_eq_some_iff.mp hfunction
  have hstart := (Declaration.above?_eq_some_iff.mp habove).1
  refine ⟨UInt32.le_iff_toNat_le.mpr hstart, ?_⟩
  rw [UInt32.le_iff_toNat_le, hlast]
  exact Declaration.le_lastLine_iff hstart hline

/-- The second line of a function of three: its body does not end on the first. -/
theorem function_encloses_second_line :
    (build [0x5b] "17:3:0" "function f() \x7b\n  g();\n\x7d\nuint x;" {}).site? 0 =
        some ⟨⟨2, 3, "g();"⟩, some ⟨"f", 1, 3, 2, "function f() \x7b\n  g();\n\x7d"⟩⟩ ∧
      (1 : UInt32) ≤ 2 ∧
      ((2 : UInt32) ≤ 3 ↔ ¬ Declaration.EndsWithin []
        (Declaration.codeBefore ⟨"function f() \x7b\n  g();\n\x7d\nuint x;"⟩ 1 2)) := by
  have hsite : (build [0x5b] "17:3:0" "function f() \x7b\n  g();\n\x7d\nuint x;" {}).site? 0 =
      some ⟨⟨2, 3, "g();"⟩, some ⟨"f", 1, 3, 2, "function f() \x7b\n  g();\n\x7d"⟩⟩ := by
    decide +kernel
  exact ⟨hsite, function_encloses_iff hsite rfl⟩

/-- The function of a site need not enclose its position: a state variable behind the end of a
function gets that function. -/
theorem site_behind_function :
    ¬ ∀ (code : Bytes) (map source : String) (settings : Settings) (pc : Nat) (site : SourceSite)
        (f : EnclosingFunction), (build code map source settings).site? pc = some site →
        site.function = some f →
          f.firstLine ≤ site.position.line ∧ site.position.line ≤ f.lastLine := by
  intro h
  -- the body of `f` ends on the first line, and its declaration is the nearest above the second
  have hsite : (build [0x5b] "16:1:0" "function f() \x7b\x7d\nuint x;" {}).site? 0 =
      some ⟨⟨2, 1, "uint x;"⟩, some ⟨"f", 1, 1, 2, "function f() \x7b\x7d"⟩⟩ := by
    decide +kernel
  have hle : (2 : UInt32) ≤ 1 := (h _ _ _ _ _ _ _ hsite rfl).2
  exact absurd hle (by decide)

end TxForensics.PcMap
