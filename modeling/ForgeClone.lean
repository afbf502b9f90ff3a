import ForgeClone.FileSystem
import ForgeClone.Remapping
import ForgeClone.Metadata
import ForgeClone.DumpSources
import ForgeClone.FindMainContract
import ForgeClone.Toml
import ForgeClone.UpdateConfig
import ForgeClone.ParseMetadata
import ForgeClone.Relocation
import ForgeClone.MoveLoop
import ForgeClone.DumpRun
