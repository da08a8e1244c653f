import AssetCatalog.Text.Table.Coding

/-! Decimal digits above ASCII. -/

namespace AssetCatalog.Text.Table

def decimals : List (Nat × Nat) := ranges
  "qk+9 2b+9 3d+9 6F+9 1V+9 1V+9 1V+9 1V+9 1V+9 1V+9 1V+9 1V+9 1V+9 1z+9 1V+9 19+9 4v+9 19+9 u3+9 D+9 4R+9
  25+9 2H+9 7+9 2X+9 1p+9 2b+9 7+9 9aT+9 aX+9 D+9 3d+9 n+9 1p+9 6z+9 5x5+9 mP+9 zd+9 d7+9 25+9 Z+9 2l+9
  4v+9 5x+9 1V+9 63+9 1F+9 1F+9 6P+9 1F+9 cf+9 3Z+9 19+9 56L+9 1p+9 2b+9 7dP+N Cd+9 6P+9 qb+9 1eL+9"

end AssetCatalog.Text.Table
