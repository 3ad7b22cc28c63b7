import FungeTrace.View.Widget

/-!
# Renderers

A renderer draws widgets on screens of its own.  All that is relied on of one is `Faithful`: a
bordered paragraph has its row `i` in row `i` inside the border, letter by letter from the left, up
to the width inside the border.  That is said of plain characters only, which take one column each.
-/

namespace FungeTrace

namespace TextRow

/-- A blank, a visible ASCII character or the middle dot. -/
def IsPlain (c : Char) : Prop := 32 ≤ c.toNat ∧ c.toNat < 127 ∨ c = '·'

/-- A row of plain characters. -/
def Plain (row : TextRow) : Prop := ∀ span ∈ row, ∀ c ∈ span.text.toList, IsPlain c

/-- The characters of a row, each in its style. -/
def letters (row : TextRow) : List (Char × Style) :=
  row.flatMap fun span => span.text.toList.map (·, span.style)

end TextRow

/-- Something that draws widgets on screens. -/
structure Renderer (σ : Type) where
  draw : σ → Area → Widget → σ
  /-- The tile in a column of a row of a screen. -/
  tile? : σ → Nat → Nat → Option Tile

namespace Renderer

variable {σ : Type}

/-- A screen has tiles all over an area. -/
def Holds (r : Renderer σ) (screen : σ) (a : Area) : Prop :=
  ∀ x y, a.left ≤ x → x < a.right → a.top ≤ y → y < a.bottom →
    ∃ tile, r.tile? screen x y = some tile

/-- A bordered paragraph of plain rows is drawn letter by letter inside its border. -/
structure Faithful (r : Renderer σ) : Prop where
  paragraph :
    ∀ {screen : σ} {a : Area} {rows : List TextRow} {row : TextRow} {i n : Nat}
      {letter : Char × Style} (title : String) (border style : Style),
      r.Holds screen a →
      rows[i]? = some row →
      row.Plain →
      row.letters[n]? = some letter →
      n < a.width - 2 →
      i < a.height - 2 →
        ∃ tile,
          r.tile? (r.draw screen a (.paragraph (some { title, style := border }) style .left rows))
            (a.left + 1 + n) (a.top + 1 + i) = some tile ∧
          tile.glyph = String.singleton letter.1 ∧
          ∀ color, letter.2.background = some color → tile.background = color

end Renderer
end FungeTrace
