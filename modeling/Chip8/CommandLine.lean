import Chip8.CommandLine.Run
import Chip8.Host.Usual
import Chip8.Yaml

/-!
The program on a usual host, with `Yaml.readBytes` as the reader of documents.
-/

namespace Chip8.Yaml

instance reader : Config.DocumentReader := ⟨readBytes⟩

end Chip8.Yaml
