import FormatSettings.Proofs.Draft.Merging
import FormatSettings.Proofs.Draft.Validity

namespace FormatSettings

namespace Value

/-- The upper value is set and valid where the lower one is not valid. -/
def Repairs (isValid : Value → Prop) (upper lower : Value) : Prop :=
  ¬ isValid lower → upper.isNull = false ∧ isValid upper

variable {isValid : Value → Prop}

end Value

namespace Widths.Draft

variable {a b : Draft} {base w : Widths}

def Repairs (upper lower : Draft) : Prop :=
  List.Forall₂ (Value.Repairs (·.IsIntFrom 0)) upper.values lower.values

end Widths.Draft

namespace Style.Draft

variable {a b : Draft} {base s : Style}

def Repairs (upper lower : Draft) : Prop :=
  List.Forall₂ (Value.Repairs Value.IsFlag) upper.values lower.values

end Style.Draft

end FormatSettings
