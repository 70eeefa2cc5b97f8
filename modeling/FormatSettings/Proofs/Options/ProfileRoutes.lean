import FormatSettings.Proofs.Options.Given

namespace FormatSettings

namespace Options

variable {t : Table}

end Options

namespace Draft

variable {d : Draft} {t : Table}

end Draft

namespace Options

end Options

end FormatSettings
