import FormatSettings.Proofs.Draft.Resolving

namespace FormatSettings

namespace Options

variable {o r : Options} {l : Draft} {profile : Option Profile}

end Options

end FormatSettings
